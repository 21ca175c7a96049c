import Mathlib.Data.List.Infix

/-- A byte stream cut into frames, and the loop that empties a receive buffer of
the complete ones. `accept` is the payload decoder: a payload it refuses is
removed from the buffer, but it also ends the loop. The four equations are all
that the results below use of a particular protocol. -/
structure Framing (β π γ ε : Type) where
  frame : π → List β
  accept : π → Option γ
  drain : List β → Except ε (List γ × List β)
  frame_ne_nil : ∀ p, frame p ≠ []
  drain_nil : drain [] = .ok ([], [])
  drain_accept : ∀ {p g}, accept p = some g → ∀ rest,
    drain (frame p ++ rest) = (drain rest).map (fun out => (g :: out.1, out.2))
  drain_reject : ∀ {p}, accept p = none → ∀ rest, drain (frame p ++ rest) = .ok ([], rest)
  drain_short : ∀ {p part}, part <+: frame p → part ≠ frame p → drain part = .ok ([], part)

namespace Framing

variable {β π γ ε : Type} (F : Framing β π γ ε)

def frames (ps : List π) : List β :=
  ps.flatMap F.frame

/-- Every chunk is appended to the buffer, which is then drained. -/
def feed (buffer : List β) : List (List β) → Except ε (List γ × List β)
  | [] => .ok ([], buffer)
  | chunk :: chunks => do
    let out ← F.drain (buffer ++ chunk)
    let later ← feed out.2 chunks
    return (out.1 ++ later.1, later.2)

/-- A buffer that holds only a strict part of the next expected frame. -/
def Pending (part : List β) : List π → Prop
  | [] => part = []
  | p :: _ => part <+: F.frame p ∧ part ≠ F.frame p

@[simp] theorem frames_nil : F.frames [] = [] := rfl

@[simp] theorem frames_cons (p : π) (ps : List π) : F.frames (p :: ps) = F.frame p ++ F.frames ps := rfl

@[simp] theorem frames_append (ps qs : List π) : F.frames (ps ++ qs) = F.frames ps ++ F.frames qs :=
  List.flatMap_append

theorem frames_eq_nil_iff {ps : List π} : F.frames ps = [] ↔ ps = [] := by
  cases ps with
  | nil => simp
  | cons p ps => simp [F.frame_ne_nil p]

variable {F}

theorem Pending.nil (ps : List π) : F.Pending [] ps := by
  cases ps with
  | nil => rfl
  | cons p ps => exact ⟨List.nil_prefix, (F.frame_ne_nil p).symm⟩

theorem Pending.drain {part : List β} {ps : List π} (pending : F.Pending part ps) :
    F.drain part = .ok ([], part) := by
  cases ps with
  | nil =>
    cases pending
    exact F.drain_nil
  | cons p ps => exact F.drain_short pending.1 pending.2

/-- No complete frame stands at the head of a pending buffer. -/
theorem Pending.no_frame {part : List β} {ps : List π} (pending : F.Pending part ps) (p : π) :
    ¬ F.frame p <+: part := by
  rintro ⟨rest, rfl⟩
  have idle := pending.drain
  cases decoded : F.accept p with
  | none =>
    rw [F.drain_reject decoded] at idle
    have same := congrArg Prod.snd (Except.ok.inj idle)
    have length := congrArg List.length same
    have positive := List.length_pos_of_ne_nil (F.frame_ne_nil p)
    simp only [List.length_append] at length
    omega
  | some g =>
    rw [F.drain_accept decoded] at idle
    cases run : F.drain rest with
    | error e => simp [run, Except.map] at idle
    | ok out => simp [run, Except.map] at idle

/-- A pending buffer that holds all of the announced frames announces none. -/
theorem Pending.eq_nil {part : List β} {ps : List π} (pending : F.Pending part ps)
    (whole : part = F.frames ps) : ps = [] ∧ part = [] := by
  cases ps with
  | nil => exact ⟨rfl, whole⟩
  | cons p ps => exact absurd ⟨_, whole.symm⟩ (pending.no_frame p)

/-- Any prefix of the stream is a number of whole frames and a part of the next one. -/
theorem split_start {s : List β} {ps : List π} (starts : s <+: F.frames ps) :
    ∃ done todo part, ps = done ++ todo ∧ s = F.frames done ++ part ∧ F.Pending part todo := by
  induction ps generalizing s with
  | nil =>
    have empty : s = [] := List.prefix_nil.mp starts
    exact ⟨[], [], [], rfl, by simp [empty], rfl⟩
  | cons p ps ih =>
    rw [frames_cons] at starts
    by_cases inside : s <+: F.frame p
    · by_cases whole : s = F.frame p
      · exact ⟨[p], ps, [], rfl, by simp [whole], Pending.nil ps⟩
      · exact ⟨[], p :: ps, s, rfl, rfl, inside, whole⟩
    · rcases List.prefix_or_prefix_of_prefix starts (List.prefix_append _ _) with within | ⟨more, rfl⟩
      · exact absurd within inside
      · obtain ⟨done, todo, part, rfl, rfl, pending⟩ := ih ((List.prefix_append_right_inj _).mp starts)
        exact ⟨p :: done, todo, part, rfl, by simp, pending⟩

theorem drain_frames {done todo : List π} {part : List β}
    (accepted : ∀ p ∈ done, (F.accept p).isSome) (pending : F.Pending part todo) :
    F.drain (F.frames done ++ part) = .ok (done.filterMap F.accept, part) := by
  induction done with
  | nil => simpa using pending.drain
  | cons p done ih =>
    obtain ⟨g, decoded⟩ := Option.isSome_iff_exists.mp (accepted p (List.mem_cons_self ..))
    have rest := ih (fun q member => accepted q (List.mem_cons_of_mem _ member))
    rw [frames_cons, List.append_assoc, F.drain_accept decoded, rest]
    simp [Except.map, decoded]

/-- One drain takes all frames of a buffer when only the last can be refused. -/
theorem drain_frames_dropLast {ps : List π} (accepted : ∀ p ∈ ps.dropLast, (F.accept p).isSome) :
    F.drain (F.frames ps) = .ok (ps.filterMap F.accept, []) := by
  rcases List.eq_nil_or_concat ps with rfl | ⟨done, p, rfl⟩
  · exact F.drain_nil
  · rw [List.concat_eq_append, List.dropLast_concat] at accepted
    rw [List.concat_eq_append]
    induction done with
    | nil =>
      cases decoded : F.accept p with
      | none => simpa [decoded] using F.drain_reject decoded []
      | some g =>
        have taken := F.drain_accept decoded []
        rw [F.drain_nil] at taken
        simpa [decoded, Except.map] using taken
    | cons q done ih =>
      obtain ⟨g, decoded⟩ := Option.isSome_iff_exists.mp (accepted q (List.mem_cons_self ..))
      have rest := ih (fun r member => accepted r (List.mem_cons_of_mem _ member))
      rw [List.cons_append, frames_cons, F.drain_accept decoded, rest]
      simp [Except.map, decoded]

/-- The state of the receiver after any cut of any prefix of the stream: whole
frames have been decoded in order and the buffer holds a part of the next. -/
theorem feed_part {part : List β} {ps : List π} {chunks : List (List β)}
    (accepted : ∀ p ∈ ps.dropLast, (F.accept p).isSome)
    (starts : part ++ chunks.flatten <+: F.frames ps) (pending : F.Pending part ps) :
    ∃ done todo last, ps = done ++ todo ∧ part ++ chunks.flatten = F.frames done ++ last ∧
      F.Pending last todo ∧ F.feed part chunks = .ok (done.filterMap F.accept, last) := by
  induction chunks generalizing part ps with
  | nil => exact ⟨[], ps, part, rfl, by simp, pending, rfl⟩
  | cons chunk chunks ih =>
    rw [List.flatten_cons, ← List.append_assoc] at starts
    obtain ⟨done, todo, next, rfl, cut, pending'⟩ :=
      split_start ((List.prefix_append _ _).trans starts)
    have drained : F.drain (part ++ chunk) = .ok (done.filterMap F.accept, next) := by
      rw [cut]
      cases todo with
      | nil =>
        cases pending'
        rw [List.append_nil] at accepted ⊢
        exact drain_frames_dropLast accepted
      | cons q todo =>
        refine drain_frames (fun p member => accepted p ?_) pending'
        rw [List.dropLast_append_of_ne_nil (List.cons_ne_nil q todo)]
        exact List.mem_append_left _ member
    rw [cut, frames_append, List.append_assoc, List.prefix_append_right_inj] at starts
    have later : ∀ p ∈ todo.dropLast, (F.accept p).isSome := by
      intro p member
      have nonempty : todo ≠ [] := by
        rintro rfl
        simp at member
      exact accepted p (by
        rw [List.dropLast_append_of_ne_nil nonempty]
        exact List.mem_append_right _ member)
    obtain ⟨more, todo', last, rfl, rest, pendingLast, run⟩ := ih later starts pending'
    refine ⟨done ++ more, todo', last, (List.append_assoc ..).symm, ?_, pendingLast, ?_⟩
    · rw [List.flatten_cons, ← List.append_assoc, cut, List.append_assoc, rest, frames_append,
        List.append_assoc]
    · simp only [feed, drained, run, bind, Except.bind, pure, Except.pure, List.filterMap_append]

/-- Any cut of the whole stream decodes every frame and leaves nothing. -/
theorem feed_frames {ps : List π} {chunks : List (List β)}
    (accepted : ∀ p ∈ ps.dropLast, (F.accept p).isSome) (whole : chunks.flatten = F.frames ps) :
    F.feed [] chunks = .ok (ps.filterMap F.accept, []) := by
  have starts : [] ++ chunks.flatten <+: F.frames ps := by simp [whole]
  obtain ⟨done, todo, last, rfl, cut, pending, run⟩ := feed_part accepted starts (Pending.nil ps)
  rw [List.nil_append, whole, frames_append, List.append_cancel_left_eq] at cut
  obtain ⟨rfl, rfl⟩ := pending.eq_nil cut.symm
  simpa using run

/-- A stream delivered one frame at a time is decoded whatever is refused. -/
theorem feed_each (ps : List π) :
    F.feed [] (ps.map F.frame) = .ok (ps.filterMap F.accept, []) := by
  induction ps with
  | nil => rfl
  | cons p ps ih =>
    have single : F.drain (F.frame p) = .ok ((F.accept p).toList, []) := by
      have taken : F.drain (F.frames [p]) = .ok ([p].filterMap F.accept, []) :=
        drain_frames_dropLast (by simp)
      cases decoded : F.accept p <;> simpa [decoded] using taken
    rw [List.map_cons, feed, List.nil_append, single]
    simp only [bind, Except.bind, ih, pure, Except.pure]
    cases decoded : F.accept p <;> simp [decoded]

/-- A drain that empties the buffer met no refused frame before the last one. -/
theorem accepted_of_drain {ps : List π} {out : List γ} (run : F.drain (F.frames ps) = .ok (out, [])) :
    ∀ p ∈ ps.dropLast, (F.accept p).isSome := by
  induction ps generalizing out with
  | nil => simp
  | cons p ps ih =>
    rw [frames_cons] at run
    cases decoded : F.accept p with
    | none =>
      rw [F.drain_reject decoded] at run
      have empty := F.frames_eq_nil_iff.mp (congrArg Prod.snd (Except.ok.inj run))
      simp [empty]
    | some g =>
      rw [F.drain_accept decoded] at run
      cases inner : F.drain (F.frames ps) with
      | error e => simp [inner, Except.map] at run
      | ok result =>
        simp only [inner, Except.map, Except.ok.injEq, Prod.mk.injEq] at run
        have rest := ih (show F.drain (F.frames ps) = .ok (result.1, []) by rw [inner, ← run.2])
        intro q member
        cases ps with
        | nil => simp at member
        | cons r ps =>
          rw [List.dropLast_cons_of_ne_nil (List.cons_ne_nil r ps), List.mem_cons] at member
          rcases member with rfl | member
          · simp [decoded]
          · exact rest q member

/-- The outcome is the same for all cuts exactly when a refused frame can only be last. -/
theorem feed_independent_iff {ps : List π} :
    (∀ chunks chunks' : List (List β), chunks.flatten = F.frames ps → chunks'.flatten = F.frames ps →
      F.feed [] chunks = F.feed [] chunks') ↔ ∀ p ∈ ps.dropLast, (F.accept p).isSome := by
  constructor
  · intro same
    have whole := same [F.frames ps] (ps.map F.frame) (by simp) (by simp [frames, List.flatMap])
    rw [feed_each, feed, List.nil_append] at whole
    cases run : F.drain (F.frames ps) with
    | error e => simp [run, bind, Except.bind] at whole
    | ok out =>
      simp only [run, bind, Except.bind, feed, pure, Except.pure, Except.ok.injEq, Prod.mk.injEq] at whole
      exact accepted_of_drain (show F.drain (F.frames ps) = .ok (out.1, []) by rw [run, ← whole.2])
  · intro accepted chunks chunks' whole whole'
    rw [feed_frames accepted whole, feed_frames accepted whole']

end Framing
