import WxDap.Client.Threads
import WxDap.Socket

namespace WxDap.SocketTransport

open Socket

/-- What one turn of the reader thread meets: the flag it tests, and what the system calls find
out if they are made. -/
structure Turn where
  shutdown : Bool := false
  select : Select := .ready
  recv : RecvResult
  error : String := ""

/-- `SocketTransport::Read` on a valid socket, with what it leaves in its buffer. -/
def Read (msTimeout : Int) (turn : Turn) : Bool × Bytes :=
  match SelectReadMS true msTimeout turn.select turn.error with
  | .error _ => (false, [])
  | .ok .kTimeout => (true, [])
  | .ok .kSuccess =>
    match Socket.Read [] turn.recv turn.error with
    | .error _ => (false, [])
    | .ok (rc, buffer) => if rc ≠ .kSuccess then (false, buffer) else (true, buffer)

/-- What a reader thread has posted, and the flag `m_terminated`. -/
structure Reading where
  posts : List PostedCall := []
  terminated : Bool := false
  deriving DecidableEq, Repr

/-- The loop of the thread that `StartReaderThread` starts. -/
def readerLoop : Loop Reading Turn Reading := fun reading turn =>
  if turn.shutdown = false then
    let (success, content) := Read 5 turn
    if success ∧ content ≠ [] then .inl { reading with posts := reading.posts ++ [.onDataRead content] }
    else if ¬success then .inr { posts := reading.posts ++ [.onConnectionError], terminated := true }
    else .inl reading
  else .inr reading

/-- What has been posted after some turns. -/
def posts (schedule : Nat → Turn) (turns : Nat) : List PostedCall :=
  (Sum.elim id id (readerLoop.after {} schedule turns)).posts

/-- What a turn means for the connection. -/
inductive Outcome
  | timeout
  | data (bytes : Received)
  | wouldBlock
  | error
  | closed

def Turn.outcome (turn : Turn) : Outcome :=
  match turn.select, turn.recv with
  | .timeout, _ => .timeout
  | .failed, _ => .error
  | .ready, .data bytes => .data bytes
  | .ready, .closed => .closed
  | .ready, .wouldBlock => .wouldBlock
  | .ready, .failed => .error

/-- The real failures. -/
def Outcome.isLost : Outcome → Bool
  | .error | .closed => true
  | .timeout | .data _ | .wouldBlock => false

def Outcome.isWouldBlock : Outcome → Bool
  | .wouldBlock => true
  | _ => false

def Outcome.received : Outcome → Option Bytes
  | .data bytes => some bytes.val
  | _ => none

/-- The outcomes of the first turns, up to the one at which the thread is told to end. -/
def seen (schedule : Nat → Turn) (turns : Nat) : List Outcome :=
  (((List.range turns).map schedule).takeWhile (fun turn => !turn.shutdown)).map Turn.outcome

/-- The outcomes before the first failure. -/
def connected (outcomes : List Outcome) : List Outcome := outcomes.takeWhile (fun outcome => !outcome.isLost)

/-- What is to be posted: the data received before the first failure, and that failure. -/
def expected (outcomes : List Outcome) : List PostedCall :=
  ((connected outcomes).filterMap Outcome.received).map .onDataRead ++
    if outcomes.any Outcome.isLost then [.onConnectionError] else []

/-- At any time, the connection has been declared lost if and only if it is, and all that has been
received before is posted. -/
def LostOnFailure (schedule : Nat → Turn) : Prop :=
  ∀ turns, posts schedule turns = expected (seen schedule turns)

/-- No turn before the first failure finds a socket that is ready and has nothing to read. -/
def NeverBlocked (schedule : Nat → Turn) : Prop :=
  ∀ turns, ∀ outcome ∈ connected (seen schedule turns), outcome.isWouldBlock = false

/-! ### One turn -/

/-- `Read` gives false for the failures, and also where reading would block. -/
theorem read_eq {msTimeout : Int} (valid : 0 ≤ msTimeout) (turn : Turn) :
    Read msTimeout turn =
      match turn.outcome with
      | .timeout => (true, [])
      | .data bytes => (true, bytes.val)
      | .wouldBlock | .error | .closed => (false, []) := by
  obtain ⟨shutdown, select, recv, error⟩ := turn
  have waits (rc : Select) : SelectReadMS true msTimeout rc error = SelectReadMS true 0 rc error := by
    simp only [SelectReadMS, selectMS, Int.not_lt.mpr valid, Int.lt_irrefl]
  rw [Read, waits]
  cases select with
  | timeout => rfl
  | failed => rfl
  | ready => cases recv <;> rfl

theorem readerLoop_eq (reading : Reading) (turn : Turn) :
    readerLoop reading turn =
      if turn.shutdown then .inr reading
      else
        match turn.outcome with
        | .timeout => .inl reading
        | .data bytes => .inl { reading with posts := reading.posts ++ [.onDataRead bytes.val] }
        | .wouldBlock | .error | .closed =>
          .inr { posts := reading.posts ++ [.onConnectionError], terminated := true } := by
  rw [readerLoop, read_eq (by decide)]
  cases turn.shutdown with
  | true => rfl
  | false =>
    rw [if_pos rfl, if_neg Bool.false_ne_true]
    cases turn.outcome with
    | data bytes => exact if_pos ⟨rfl, bytes.property.1⟩
    | timeout => rfl
    | wouldBlock => rfl
    | error => rfl
    | closed => rfl

/-! ### Whole runs -/

section
variable (schedule : Nat → Turn)

theorem seen_succ (turns : Nat) :
    seen schedule (turns + 1) =
      if (schedule 0).shutdown then []
      else (schedule 0).outcome :: seen (fun k => schedule (k + 1)) turns := by
  rw [seen, List.range_succ_eq_map, List.map_cons, List.map_map, List.takeWhile_cons]
  cases (schedule 0).shutdown <;> rfl

theorem expected_cons (outcome : Outcome) (rest : List Outcome) :
    expected (outcome :: rest) =
      if outcome.isLost then [.onConnectionError]
      else (outcome.received.map PostedCall.onDataRead).toList ++ expected rest := by
  rw [expected, connected, List.takeWhile_cons, List.any_cons]
  cases outcome <;> rfl

theorem seen_running {schedule : Nat → Turn} (running : ¬(schedule 0).shutdown = true) (turns : Nat) :
    seen schedule (turns + 1) = (schedule 0).outcome :: seen (fun k => schedule (k + 1)) turns := by
  rw [seen_succ, if_neg running]

theorem after_running {schedule : Nat → Turn} (running : ¬(schedule 0).shutdown = true) (reading : Reading)
    (turns : Nat) :
    readerLoop.after reading schedule (turns + 1) =
      match (schedule 0).outcome with
      | .timeout => readerLoop.after reading (fun k => schedule (k + 1)) turns
      | .data bytes =>
        readerLoop.after { reading with posts := reading.posts ++ [.onDataRead bytes.val] }
          (fun k => schedule (k + 1)) turns
      | .wouldBlock | .error | .closed =>
        .inr { posts := reading.posts ++ [.onConnectionError], terminated := true } := by
  rw [Loop.after_first, readerLoop_eq, if_neg running]
  cases (schedule 0).outcome <;> rfl

/-- A loop that goes on from some posts adds what is expected to them. -/
theorem posts_of_neverBlocked {schedule : Nat → Turn} {turns : Nat}
    (never : ∀ outcome ∈ connected (seen schedule turns), outcome.isWouldBlock = false) (reading : Reading) :
    (Sum.elim id id (readerLoop.after reading schedule turns)).posts =
      reading.posts ++ expected (seen schedule turns) := by
  induction turns generalizing schedule reading with
  | zero => exact (List.append_nil _).symm
  | succ turns ih =>
    by_cases told : (schedule 0).shutdown = true
    · rw [Loop.after_first, readerLoop_eq, seen_succ, if_pos told, if_pos told]
      exact (List.append_nil _).symm
    · rw [seen_running told, connected, List.takeWhile_cons] at never
      rw [after_running told, seen_running told, expected_cons]
      cases outcome : (schedule 0).outcome with
      | timeout =>
        rw [outcome] at never
        exact ih (fun other member => never other (List.mem_cons_of_mem _ member)) reading
      | data bytes =>
        rw [outcome] at never
        have rest := ih (fun other member => never other (List.mem_cons_of_mem _ member))
          { reading with posts := reading.posts ++ [.onDataRead bytes.val] }
        rw [List.append_assoc] at rest
        exact rest
      | wouldBlock =>
        rw [outcome] at never
        exact absurd (never _ List.mem_cons_self) (by decide)
      | error => rfl
      | closed => rfl

/-- Where reading would block, the loop posts what is not expected. -/
theorem exists_posts_ne {schedule : Nat → Turn} {turns : Nat} {outcome : Outcome}
    (member : outcome ∈ connected (seen schedule turns)) (blocked : outcome.isWouldBlock = true)
    (reading : Reading) :
    ∃ n, (Sum.elim id id (readerLoop.after reading schedule n)).posts ≠
      reading.posts ++ expected (seen schedule n) := by
  induction turns generalizing schedule reading with
  | zero => cases member
  | succ turns ih =>
    by_cases told : (schedule 0).shutdown = true
    · rw [seen_succ, if_pos told] at member
      cases member
    · rw [seen_running told, connected, List.takeWhile_cons] at member
      cases first : (schedule 0).outcome with
      | timeout =>
        rw [first] at member
        rcases List.mem_cons.mp member with rfl | later
        · cases blocked
        · obtain ⟨n, differs⟩ := ih later reading
          refine ⟨n + 1, ?_⟩
          rw [after_running told, seen_running told, expected_cons, first]
          exact differs
      | data bytes =>
        rw [first] at member
        rcases List.mem_cons.mp member with rfl | later
        · cases blocked
        · obtain ⟨n, differs⟩ := ih later { reading with posts := reading.posts ++ [.onDataRead bytes.val] }
          refine ⟨n + 1, ?_⟩
          rw [after_running told, seen_running told, expected_cons, first]
          rw [List.append_assoc] at differs
          exact differs
      | wouldBlock =>
        refine ⟨1, ?_⟩
        rw [after_running told, seen_running told, first]
        exact fun same => List.cons_ne_nil _ _ (List.append_cancel_left same)
      | error =>
        rw [first] at member
        cases member
      | closed =>
        rw [first] at member
        cases member

/-- The connection is declared lost on a real failure only, unless reading would block on a socket
that is ready: `Read` of the transport gives false for the code `kTimeout` of the socket. -/
theorem lostOnFailure_iff : LostOnFailure schedule ↔ NeverBlocked schedule := by
  constructor
  · intro exact turns outcome member
    by_contra blocked
    obtain ⟨n, differs⟩ := exists_posts_ne member (Bool.eq_true_of_not_eq_false blocked) {}
    exact differs (exact n)
  · intro never turns
    exact posts_of_neverBlocked (never turns) {}

/-- A datagram that `select` has seen and `recv` has thrown away. -/
theorem not_lostOnFailure_wouldBlock : ¬ ∀ schedule, LostOnFailure schedule := by
  intro always
  have posted : posts (fun _ => { recv := .wouldBlock }) 1 = [] := always _ 1
  exact absurd posted (by decide)

end

/-! ### The reader thread of the client -/

/-- What the thread gets from `Read`. -/
def Turn.result (turn : Turn) : ReadResult :=
  let (success, content) := Read 5 turn
  if success then .content content else .failure

section
variable {κ : Type} {parse : Bytes → Option CJson} {platform : Platform} {world after : World κ}

theorem step_reader {reader : Reader} (result : ReadResult) (running : world.reader = some reader)
    (step : world.readerStep reader result = some after) :
    World.step parse platform world (.reader result) = some (after, []) := by
  simp only [World.step, running, Option.bind_some, step, Option.map_some]

theorem result_eq (turn : Turn) :
    turn.result =
      match turn.outcome with
      | .timeout => .content []
      | .data bytes => .content bytes.val
      | .wouldBlock | .error | .closed => .failure := by
  rw [Turn.result, read_eq (by decide)]
  cases turn.outcome <;> rfl

/-- One turn of the loop is a few steps of the reader thread, inside `Read` with what `Read` gives: they
post the same calls, and then the thread is at its test again, or it has finished. -/
theorem run_reader {session : Nat} (turn : Turn) (testing : world.reader = some ⟨session, .testing⟩)
    (told : world.client.shutdown = turn.shutdown) :
    ∃ trace last, Machine.Run (World.step parse platform) world trace last ∧
      (∀ transition ∈ trace, transition.action = .reader turn.result) ∧
      last.pending = world.pending ++
        (Sum.elim id id (readerLoop {} turn)).posts.map (fun call => ⟨session, call⟩) ∧
      last.reader = some ⟨session, if (readerLoop {} turn).isLeft then .testing else .finished⟩ := by
  have tests : World.step parse platform world (.reader turn.result) = some
      ({ world with reader := some ⟨session, if turn.shutdown then .finished else .reading⟩ }, []) :=
    step_reader _ testing (by simp only [World.readerStep, told])
  have first := Machine.Run.start.next tests
  have result := result_eq turn
  generalize turn.result = given at first result
  rw [readerLoop_eq]
  cases flag : turn.shutdown with
  | true =>
    rw [flag] at first
    exact ⟨_, _, first, by simp, (List.append_nil _).symm, rfl⟩
  | false =>
    rw [flag, if_neg Bool.false_ne_true] at first
    have failing (failed : given = .failure) :
        ∃ trace last, Machine.Run (World.step parse platform) world trace last ∧
          (∀ transition ∈ trace, transition.action = .reader given) ∧
          last.pending = world.pending ++ [⟨session, .onConnectionError⟩] ∧
          last.reader = some ⟨session, .finished⟩ := by
      subst failed
      have second := first.next (step_reader .failure rfl rfl)
      have third := second.next (step_reader .failure rfl rfl)
      have fourth := third.next (step_reader .failure rfl rfl)
      exact ⟨_, _, fourth, by simp, rfl, rfl⟩
    cases outcome : turn.outcome with
    | timeout =>
      obtain rfl : given = .content [] := by rw [result, outcome]
      have second := first.next (step_reader (.content []) rfl rfl)
      exact ⟨_, _, second, by simp, (List.append_nil _).symm, rfl⟩
    | data bytes =>
      obtain ⟨_ | ⟨byte, rest⟩, nonempty, fits⟩ := bytes
      · exact absurd rfl nonempty
      · obtain rfl : given = .content (byte :: rest) := by rw [result, outcome]
        have second := first.next (step_reader (.content (byte :: rest)) rfl rfl)
        have third := second.next (step_reader (.content (byte :: rest)) rfl rfl)
        exact ⟨_, _, third, by simp, rfl, rfl⟩
    | wouldBlock => exact failing (by rw [result, outcome])
    | error => exact failing (by rw [result, outcome])
    | closed => exact failing (by rw [result, outcome])

end

end WxDap.SocketTransport
