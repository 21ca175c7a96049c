import WxDap.Lib.CInt
import WxDap.Lib.Decimal
import WxDap.UnixProcess

namespace WxDap.ConnectionString

/-! ### The functions of `wxString`, which is a sequence of code points here -/

def beforeFirst (str : List Char) (ch : Char) : List Char := str.takeWhile (· ≠ ch)

/-- Empty when `ch` does not occur. -/
def afterFirst (str : List Char) (ch : Char) : List Char := (str.dropWhile (· ≠ ch)).drop 1

/-- It throws when its start lies beyond the end. -/
def substr (str : List Char) (start : Nat) : Except String (List Char) :=
  if str.length < start then .error "out_of_range" else .ok (str.drop start)

/-! ### Parsing -/

inductive Protocol
  | kTcp
  | kUnixLocalSocket
  deriving DecidableEq, Repr

/-- An object of the class `ConnectionString`. Its constructor does not initialise the protocol. -/
structure Address where
  protocol : Option Protocol := none
  host : List Char := []
  /-- a `long` -/
  port : Int := -1
  path : List Char := []
  isOK : Bool := false
  deriving DecidableEq, Repr

def tcp : List Char := ['t', 'c', 'p']

def unix : List Char := ['u', 'n', 'i', 'x']

/-- The second half of `DoParse`, with the protocol that the first half has found. -/
def parseAddress (cStr : List Char → Bytes) (protocol : Protocol) (connectionString : List Char) :
    Except String Address := do
  let address ← substr (afterFirst connectionString ':') 2
  match protocol with
  | .kUnixLocalSocket =>
    return { protocol := some protocol, path := address, isOK := address ≠ [] }
  | .kTcp =>
    let host := beforeFirst address ':'
    let text := afterFirst address ':'
    let port := if text ≠ [] then Decimal.atol (cStr text) else -1
    return { protocol := some protocol, host, port, isOK := host ≠ [] ∧ port ≠ -1 }

/-- The constructor of `ConnectionString`, which calls `DoParse`. `cStr` is the conversion of a
`wxString` to a C string, and `win32` says whether `_WIN32` is defined. -/
def parse (cStr : List Char → Bytes) (win32 : Bool) (connectionString : List Char) :
    Except String Address :=
  let protocol := beforeFirst connectionString ':'
  if protocol = tcp then parseAddress cStr .kTcp connectionString
  else if protocol = unix then
    if win32 then .ok {} else parseAddress cStr .kUnixLocalSocket connectionString
  else .ok {}

/-- `SocketClient::Connect`; `connectRemote` makes the connection. -/
def connect (cStr : List Char → Bytes) (win32 : Bool) (connectRemote : List Char → Int → Bool)
    (connectionString : List Char) : Except String Bool := do
  let cs ← parse cStr win32 connectionString
  if cs.isOK = false then return false
  else if cs.protocol = some .kUnixLocalSocket then throw "Unsupported protocol"
  else return connectRemote cs.host (CInt.wrap32 cs.port)

/-! ### The grammar -/

/-- The characters of an ASCII text as bytes. -/
def ascii (text : List Char) : Bytes := text.map (fun c => c.toNat.toUInt8)

/-- A decimal numeral of a port. -/
def IsPort (port : List Char) : Prop :=
  port ≠ [] ∧ (∀ c ∈ port, c.isDigit = true) ∧ Decimal.value (ascii port) ≤ 65535

def tcpString (host port : List Char) : List Char := tcp ++ ':' :: '/' :: '/' :: (host ++ ':' :: port)

def unixString (path : List Char) : List Char := unix ++ ':' :: '/' :: '/' :: path

def IsTcp (host port : List Char) : Prop := host ≠ [] ∧ ':' ∉ host ∧ IsPort port

/-- What parsing is to do with a text: it accepts those of the grammar, and takes their parts. -/
def ParsedExactly (cStr : List Char → Bytes) (text : List Char) : Prop :=
  ∃ cs, parse cStr false text = .ok cs ∧
    (cs.isOK = true ↔
      (∃ host port, text = tcpString host port ∧ IsTcp host port) ∨
      ∃ path, text = unixString path ∧ path ≠ []) ∧
    (∀ host port, text = tcpString host port → IsTcp host port →
      cs.protocol = some .kTcp ∧ cs.host = host ∧ cs.port = Decimal.value (ascii port)) ∧
    ∀ path, text = unixString path → path ≠ [] → cs.protocol = some .kUnixLocalSocket ∧ cs.path = path

/-- What a text has to be like for that. A known protocol is followed by two more characters, which
are not looked at; they are slashes, or nothing comes of the rest. -/
def Recognised (cStr : List Char → Bytes) (text : List Char) : Prop :=
  let address := afterFirst text ':'
  let host := beforeFirst (address.drop 2) ':'
  let port := afterFirst (address.drop 2) ':'
  (beforeFirst text ':' = tcp → 2 ≤ address.length ∧
    (host = [] ∨ port = [] ∨ Decimal.atol (cStr port) = -1 ∨ address.take 2 = ['/', '/'] ∧ IsPort port)) ∧
  (beforeFirst text ':' = unix → 2 ≤ address.length ∧
    (address.drop 2 = [] ∨ address.take 2 = ['/', '/']))

/-! ### Splitting at a colon -/

theorem forall_ne_of_notMem {str : List Char} {ch : Char} (none : ch ∉ str) :
    ∀ c ∈ str, decide (c ≠ ch) = true := by
  intro c member
  exact decide_eq_true (fun same => none (same ▸ member))

theorem beforeFirst_append {str : List Char} {ch : Char} (none : ch ∉ str) (rest : List Char) :
    beforeFirst (str ++ ch :: rest) ch = str := by
  rw [beforeFirst, List.takeWhile_append_of_pos (forall_ne_of_notMem none)]
  simp

theorem afterFirst_append {str : List Char} {ch : Char} (none : ch ∉ str) (rest : List Char) :
    afterFirst (str ++ ch :: rest) ch = rest := by
  rw [afterFirst, List.dropWhile_append_of_pos (forall_ne_of_notMem none)]
  simp

theorem notMem_beforeFirst (str : List Char) (ch : Char) : ch ∉ beforeFirst str ch := by
  intro member
  exact absurd (List.mem_takeWhile_imp member) (by simp)

/-- A text is put together again where there is something after the character. -/
theorem beforeFirst_append_afterFirst {str : List Char} {ch : Char} (some : afterFirst str ch ≠ []) :
    beforeFirst str ch ++ ch :: afterFirst str ch = str := by
  induction str with
  | nil => exact absurd rfl some
  | cons c str ih =>
    by_cases same : c = ch
    · subst same
      simp [beforeFirst, afterFirst]
    · have before : beforeFirst (c :: str) ch = c :: beforeFirst str ch := by simp [beforeFirst, same]
      have after : afterFirst (c :: str) ch = afterFirst str ch := by simp [afterFirst, same]
      rw [after] at some ⊢
      rw [before, List.cons_append, ih some]

/-! ### The texts of the grammar -/

/-- A text of the grammar. -/
def Grammatical (text : List Char) : Prop :=
  (∃ host port, text = tcpString host port ∧ IsTcp host port) ∨
    ∃ path, text = unixString path ∧ path ≠ []

section
variable {text : List Char}

theorem exists_tcpString_iff :
    (∃ host port, text = tcpString host port ∧ IsTcp host port) ↔
      beforeFirst text ':' = tcp ∧ (afterFirst text ':').take 2 = ['/', '/'] ∧
        beforeFirst ((afterFirst text ':').drop 2) ':' ≠ [] ∧
        IsPort (afterFirst ((afterFirst text ':').drop 2) ':') := by
  constructor
  · rintro ⟨host, port, rfl, nonempty, none, numeral⟩
    have colon : ':' ∉ tcp := by decide
    rw [tcpString, beforeFirst_append colon, afterFirst_append colon]
    rw [List.drop_succ_cons, List.drop_succ_cons, List.drop_zero, beforeFirst_append none, afterFirst_append none]
    exact ⟨rfl, rfl, nonempty, numeral⟩
  · rintro ⟨protocol, slashes, nonempty, numeral⟩
    have address : afterFirst text ':' ≠ [] := by
      intro empty
      rw [empty] at slashes
      cases slashes
    have whole := beforeFirst_append_afterFirst address
    have parts := beforeFirst_append_afterFirst numeral.1
    rw [protocol, ← List.take_append_drop 2 (afterFirst text ':'), slashes, ← parts] at whole
    exact ⟨_, _, whole.symm, nonempty, notMem_beforeFirst _ _, numeral⟩

theorem exists_unixString_iff :
    (∃ path, text = unixString path ∧ path ≠ []) ↔
      beforeFirst text ':' = unix ∧ (afterFirst text ':').take 2 = ['/', '/'] ∧
        (afterFirst text ':').drop 2 ≠ [] := by
  constructor
  · rintro ⟨path, rfl, nonempty⟩
    have colon : ':' ∉ unix := by decide
    rw [unixString, beforeFirst_append colon, afterFirst_append colon]
    exact ⟨rfl, rfl, nonempty⟩
  · rintro ⟨protocol, slashes, nonempty⟩
    have address : afterFirst text ':' ≠ [] := by
      intro empty
      rw [empty] at slashes
      cases slashes
    have whole := beforeFirst_append_afterFirst address
    rw [protocol, ← List.take_append_drop 2 (afterFirst text ':'), slashes] at whole
    exact ⟨_, whole.symm, nonempty⟩

end

/-! ### What the constructor makes of a text -/

section
variable {cStr : List Char → Bytes} {text : List Char}

theorem parse_tcp (protocol : beforeFirst text ':' = tcp) :
    parse cStr false text = parseAddress cStr .kTcp text := by rw [parse, if_pos protocol]

theorem parse_unix (protocol : beforeFirst text ':' = unix) :
    parse cStr false text = parseAddress cStr .kUnixLocalSocket text := by
  rw [parse, protocol, if_neg (by decide), if_pos rfl]
  rfl

theorem parseAddress_of_lt (protocol : Protocol) (short : (afterFirst text ':').length < 2) :
    parseAddress cStr protocol text = .error "out_of_range" := by
  rw [parseAddress, substr, if_pos short]
  rfl

theorem substr_of_le (long : 2 ≤ (afterFirst text ':').length) :
    substr (afterFirst text ':') 2 = .ok ((afterFirst text ':').drop 2) := by
  rw [substr, if_neg (Nat.not_lt.mpr long)]

variable (cStr) in
theorem parseAddress_unix (long : 2 ≤ (afterFirst text ':').length) :
    ∃ cs, parseAddress cStr .kUnixLocalSocket text = .ok cs ∧ cs.protocol = some .kUnixLocalSocket ∧
      cs.path = (afterFirst text ':').drop 2 ∧ (cs.isOK = true ↔ (afterFirst text ':').drop 2 ≠ []) := by
  rw [parseAddress, substr_of_le long]
  exact ⟨_, rfl, rfl, rfl, decide_eq_true_iff⟩

variable (cStr) in
theorem parseAddress_tcp (long : 2 ≤ (afterFirst text ':').length) :
    let host := beforeFirst ((afterFirst text ':').drop 2) ':'
    let port := afterFirst ((afterFirst text ':').drop 2) ':'
    ∃ cs, parseAddress cStr .kTcp text = .ok cs ∧ cs.protocol = some .kTcp ∧ cs.host = host ∧
      (port ≠ [] → cs.port = Decimal.atol (cStr port)) ∧
      (cs.isOK = true ↔ host ≠ [] ∧ port ≠ [] ∧ Decimal.atol (cStr port) ≠ -1) := by
  intro host port
  rw [parseAddress, substr_of_le long]
  refine ⟨_, rfl, rfl, rfl, fun some => if_pos some, decide_eq_true_iff.trans (and_congr_right fun _ => ?_)⟩
  by_cases some : port ≠ []
  · rw [if_pos some, and_iff_right some]
  · rw [if_neg some]
    exact iff_of_false (fun differs => differs rfl) (fun both => some both.1)

/-- A conversion to a C string leaves ASCII text as it is. -/
def KeepsAscii (cStr : List Char → Bytes) : Prop :=
  ∀ text, (∀ c ∈ text, 0 < c.toNat ∧ c.toNat < 128) → cStr text = ascii text

theorem atol_of_isPort (keeps : KeepsAscii cStr) {port : List Char} (numeral : IsPort port) :
    Decimal.atol (cStr port) = Decimal.value (ascii port) := by
  obtain ⟨nonempty, digits, small⟩ := numeral
  have text : cStr port = ascii port := by
    refine keeps port (fun c member => ?_)
    have digit := digits c member
    simp only [Char.isDigit, Bool.and_eq_true, decide_eq_true_eq] at digit
    have lower : 48 ≤ c.toNat := digit.1
    have upper : c.toNat ≤ 57 := digit.2
    omega
  rw [text]
  refine Decimal.atol_digits (by simpa [ascii] using nonempty) (fun b member => ?_) (by omega)
  obtain ⟨c, inPort, rfl⟩ := List.mem_map.mp member
  exact (Decimal.isDigit_of_char (digits c inPort)).1

/-- A text of the first kind has these parts, and they are accepted. -/
theorem parse_tcpString (keeps : KeepsAscii cStr) {host port : List Char} (valid : IsTcp host port) :
    ∃ cs, parse cStr false (tcpString host port) = .ok cs ∧ cs.isOK = true ∧ cs.protocol = some .kTcp ∧
      cs.host = host ∧ cs.port = Decimal.value (ascii port) := by
  obtain ⟨nonempty, none, numeral⟩ := valid
  have colon : ':' ∉ tcp := by decide
  have protocol : beforeFirst (tcpString host port) ':' = tcp := beforeFirst_append colon _
  have address : afterFirst (tcpString host port) ':' = '/' :: '/' :: (host ++ ':' :: port) :=
    afterFirst_append colon _
  have before : beforeFirst ((afterFirst (tcpString host port) ':').drop 2) ':' = host := by
    rw [address]
    exact beforeFirst_append none port
  have after : afterFirst ((afterFirst (tcpString host port) ':').drop 2) ':' = port := by
    rw [address]
    exact afterFirst_append none port
  have value := atol_of_isPort keeps numeral
  have long : 2 ≤ (afterFirst (tcpString host port) ':').length := by
    rw [address]
    exact Nat.le_add_left _ _
  obtain ⟨cs, result, kind, hosts, ports, ok⟩ := parseAddress_tcp cStr long
  rw [after] at ports ok
  rw [before] at hosts ok
  refine ⟨cs, (parse_tcp protocol).trans result, ok.mpr ⟨nonempty, numeral.1, ?_⟩, kind, hosts, ?_⟩
  · rw [value]
    omega
  · rw [ports numeral.1, value]

variable (cStr) in
theorem parse_unixString {path : List Char} (nonempty : path ≠ []) :
    ∃ cs, parse cStr false (unixString path) = .ok cs ∧ cs.isOK = true ∧
      cs.protocol = some .kUnixLocalSocket ∧ cs.path = path := by
  have colon : ':' ∉ unix := by decide
  have protocol : beforeFirst (unixString path) ':' = unix := beforeFirst_append colon _
  have address : afterFirst (unixString path) ':' = '/' :: '/' :: path := afterFirst_append colon _
  have long : 2 ≤ (afterFirst (unixString path) ':').length := by
    rw [address]
    exact Nat.le_add_left _ _
  obtain ⟨cs, result, kind, paths, ok⟩ := parseAddress_unix cStr long
  rw [address] at paths ok
  exact ⟨cs, (parse_unix protocol).trans result, ok.mpr nonempty, kind, paths⟩

/-- The parts of an accepted text are right in any case. -/
theorem parsedExactly_iff_isOK (keeps : KeepsAscii cStr) :
    ParsedExactly cStr text ↔ ∃ cs, parse cStr false text = .ok cs ∧ (cs.isOK = true ↔ Grammatical text) := by
  refine exists_congr (fun cs => and_congr_right fun result => ?_)
  refine ⟨fun exact => exact.1, fun accepted => ⟨accepted, ?_, ?_⟩⟩
  · rintro host port rfl valid
    obtain ⟨other, parsed, _, parts⟩ := parse_tcpString keeps valid
    cases result.symm.trans parsed
    exact parts
  · rintro path rfl nonempty
    obtain ⟨other, parsed, _, parts⟩ := parse_unixString cStr nonempty
    cases result.symm.trans parsed
    exact parts

theorem exists_ok_iff {computed : Except String Address} {cs : Address} {holds : Address → Prop}
    (result : computed = .ok cs) : (∃ other, computed = .ok other ∧ holds other) ↔ holds cs := by
  constructor
  · rintro ⟨other, found, held⟩
    exact Except.ok.inj (result.symm.trans found) ▸ held
  · exact fun held => ⟨cs, result, held⟩

/-- Accepting an address by TCP means that there are a host and a port which is not read as -1. -/
theorem exists_parseAddress_tcp_iff (keeps : KeepsAscii cStr) :
    let host := beforeFirst ((afterFirst text ':').drop 2) ':'
    let port := afterFirst ((afterFirst text ':').drop 2) ':'
    let slashes := (afterFirst text ':').take 2 = ['/', '/']
    (∃ cs, parseAddress cStr .kTcp text = .ok cs ∧ (cs.isOK = true ↔ slashes ∧ host ≠ [] ∧ IsPort port)) ↔
      2 ≤ (afterFirst text ':').length ∧
        (host = [] ∨ port = [] ∨ Decimal.atol (cStr port) = -1 ∨ slashes ∧ IsPort port) := by
  intro host port slashes
  have number (numeral : IsPort port) : port ≠ [] ∧ Decimal.atol (cStr port) ≠ -1 := by
    refine ⟨numeral.1, ?_⟩
    rw [atol_of_isPort keeps numeral]
    omega
  by_cases long : 2 ≤ (afterFirst text ':').length
  · obtain ⟨cs, result, _, _, _, ok⟩ := parseAddress_tcp cStr long
    rw [exists_ok_iff result, ok, and_iff_right long]
    constructor
    · intro accepts
      by_cases nameless : host = []
      · exact Or.inl nameless
      · by_cases portless : port = []
        · exact Or.inr (Or.inl portless)
        · by_cases minus : Decimal.atol (cStr port) = -1
          · exact Or.inr (Or.inr (Or.inl minus))
          · have valid := accepts.mp ⟨nameless, portless, minus⟩
            exact Or.inr (Or.inr (Or.inr ⟨valid.1, valid.2.2⟩))
    · rintro (nameless | portless | minus | ⟨written, numeral⟩)
      · exact iff_of_false (fun accepts => accepts.1 nameless) (fun valid => valid.2.1 nameless)
      · exact iff_of_false (fun accepts => accepts.2.1 portless) (fun valid => valid.2.2.1 portless)
      · exact iff_of_false (fun accepts => accepts.2.2 minus) (fun valid => (number valid.2.2).2 minus)
      · exact ⟨fun accepts => ⟨written, accepts.1, numeral⟩, fun valid => ⟨valid.2.1, number numeral⟩⟩
  · rw [parseAddress_of_lt .kTcp (Nat.lt_of_not_le long)]
    exact iff_of_false (fun ⟨_, found, _⟩ => nomatch found) (fun both => long both.1)

theorem exists_parseAddress_unix_iff :
    let path := (afterFirst text ':').drop 2
    let slashes := (afterFirst text ':').take 2 = ['/', '/']
    (∃ cs, parseAddress cStr .kUnixLocalSocket text = .ok cs ∧ (cs.isOK = true ↔ slashes ∧ path ≠ [])) ↔
      2 ≤ (afterFirst text ':').length ∧ (path = [] ∨ slashes) := by
  intro path slashes
  by_cases long : 2 ≤ (afterFirst text ':').length
  · obtain ⟨cs, result, _, _, ok⟩ := parseAddress_unix cStr long
    rw [exists_ok_iff result, ok, and_iff_right long]
    constructor
    · intro accepts
      by_cases empty : path = []
      · exact Or.inl empty
      · exact Or.inr (accepts.mp empty).1
    · rintro (empty | written)
      · exact iff_of_false (fun some => some empty) (fun valid => valid.2 empty)
      · exact (and_iff_right written).symm
  · rw [parseAddress_of_lt .kUnixLocalSocket (Nat.lt_of_not_le long)]
    exact iff_of_false (fun ⟨_, found, _⟩ => nomatch found) (fun both => long both.1)

theorem exists_parse_iff (keeps : KeepsAscii cStr) :
    (∃ cs, parse cStr false text = .ok cs ∧ (cs.isOK = true ↔ Grammatical text)) ↔ Recognised cStr text := by
  have distinct : tcp ≠ unix := by decide
  rw [Grammatical, exists_tcpString_iff, exists_unixString_iff]
  simp only [Recognised]
  by_cases isTcp : beforeFirst text ':' = tcp
  · rw [parse_tcp isTcp]
    simp only [isTcp, distinct, true_and, false_and, or_false, true_implies, false_implies, and_true]
    exact exists_parseAddress_tcp_iff keeps
  · by_cases isUnix : beforeFirst text ':' = unix
    · rw [parse_unix isUnix]
      simp only [isUnix, distinct.symm, true_and, false_and, false_or, true_implies, false_implies]
      exact exists_parseAddress_unix_iff
    · simp only [isTcp, isUnix, false_and, false_or, false_implies, true_and, iff_true]
      exact ⟨{}, by rw [parse, if_neg isTcp, if_neg isUnix], Bool.false_ne_true.elim, False.elim⟩

/-- Connection strings are parsed exactly for these texts only: a known protocol with less than two
characters after its colon makes `substr` throw, these two characters may be any, and a port is
what `atol` makes of it. -/
theorem parsedExactly_iff (cStr : List Char → Bytes) (keeps : KeepsAscii cStr) (text : List Char) :
    ParsedExactly cStr text ↔ Recognised cStr text :=
  (parsedExactly_iff_isOK keeps).trans (exists_parse_iff keeps)

/-! ### Connecting -/

variable (connectRemote : List Char → Int → Bool)

theorem connect_of_ok {cs : Address} (result : parse cStr false text = .ok cs) :
    connect cStr false connectRemote text =
      if cs.isOK = false then .ok false
      else if cs.protocol = some .kUnixLocalSocket then .error "Unsupported protocol"
      else .ok (connectRemote cs.host (CInt.wrap32 cs.port)) := by
  rw [connect, result]
  rfl

theorem connect_tcpString (keeps : KeepsAscii cStr) {host port : List Char} (valid : IsTcp host port) :
    connect cStr false connectRemote (tcpString host port) =
      .ok (connectRemote host (Decimal.value (ascii port))) := by
  obtain ⟨cs, result, ok, kind, rfl, value⟩ := parse_tcpString keeps valid
  have small := valid.2.2.2.2
  have same : CInt.wrap32 cs.port = Decimal.value (ascii port) := by
    rw [value]
    exact CInt.wrap32_of_range (by omega) (by omega)
  simp [connect_of_ok connectRemote result, ok, kind, same]

/-- A client does not connect to a local socket, whatever its path. -/
theorem connect_unixString {path : List Char} (nonempty : path ≠ []) :
    connect cStr false connectRemote (unixString path) = .error "Unsupported protocol" := by
  obtain ⟨cs, result, ok, kind, _⟩ := parse_unixString cStr nonempty
  simp [connect_of_ok connectRemote result, ok, kind]

theorem connect_of_not_grammatical (keeps : KeepsAscii cStr) (recognised : Recognised cStr text)
    (other : ¬Grammatical text) : connect cStr false connectRemote text = .ok false := by
  obtain ⟨cs, result, accepted⟩ := (exists_parse_iff keeps).mpr recognised
  have refused : cs.isOK = false := Bool.eq_false_iff.mpr (fun ok => other (accepted.mp ok))
  rw [connect_of_ok connectRemote result, if_pos refused]

end

theorem keepsAscii_cStr : KeepsAscii UnixProcess.cStr := by
  intro text small
  rw [UnixProcess.cStr, ascii, List.map_eq_flatMap]
  refine List.flatMap_congr (fun c member => ?_)
  have single := (UnixProcess.length_utf8EncodeChar_eq_one c).mpr (small c member).2
  rw [String.length_utf8EncodeChar] at single
  exact String.utf8EncodeChar_eq_singleton single

/-- An address of a local server, under a UTF-8 locale. -/
theorem parsedExactly_iff_localhost :
    KeepsAscii UnixProcess.cStr ∧
      (ParsedExactly UnixProcess.cStr (tcpString ['h'] ['8', '0']) ↔
        Recognised UnixProcess.cStr (tcpString ['h'] ['8', '0'])) :=
  ⟨keepsAscii_cStr, parsedExactly_iff _ keepsAscii_cStr _⟩

/-- The name of a protocol and nothing else: `substr` throws. -/
theorem not_parsedExactly_tcp : ¬ ∀ text, ParsedExactly UnixProcess.cStr text := by
  intro always
  obtain ⟨cs, result, _⟩ := always tcp
  have thrown : parse UnixProcess.cStr false tcp = .error "out_of_range" := by decide
  rw [thrown] at result
  cases result

end WxDap.ConnectionString
