import Mathlib.Data.List.Basic
import Mathlib.Data.List.TakeWhile
import Mathlib.Data.Nat.Notation

/-!
# JSON texts

`json.loads` of a byte string: its encoding is told from its first bytes, and the decoded text must
be one value with nothing but white space around it. Strings are code points, lone surrogates among
them. `json.dumps` of an object of strings is a text which `json.loads` reads back.
-/

namespace Lms200.Json

/-- The code points of a string. -/
abbrev Text := List ℕ

/-- The code points of a literal. -/
def points (s : String) : Text := s.toList.map Char.toNat

/-! ## Encodings -/

/-- The encodings which `detect_encoding` tells apart. -/
inductive Encoding where
  | utf8
  | utf8Sig
  | utf16
  | utf16be
  | utf16le
  | utf32
  | utf32be
  | utf32le
  deriving DecidableEq

/-- `detect_encoding` -/
def detectEncoding (b : List UInt8) : Encoding :=
  if [0, 0, 0xFE, 0xFF].isPrefixOf b || [0xFF, 0xFE, 0, 0].isPrefixOf b then .utf32
  else if [0xFE, 0xFF].isPrefixOf b || [0xFF, 0xFE].isPrefixOf b then .utf16
  else if [0xEF, 0xBB, 0xBF].isPrefixOf b then .utf8Sig
  else match b with
    | b0 :: b1 :: b2 :: b3 :: _ =>
      if b0 = 0 then (if b1 ≠ 0 then .utf16be else .utf32be)
      else if b1 = 0 then (if b2 ≠ 0 ∨ b3 ≠ 0 then .utf16le else .utf32le)
      else .utf8
    | [b0, b1] => if b0 = 0 then .utf16be else if b1 = 0 then .utf16le else .utf8
    | _ => .utf8

/-- A character of which some bytes were read: how many it lacks, its bits and the range of its next byte. -/
structure Partial where
  owed : ℕ
  bits : ℕ
  low : UInt8 := 0x80
  high : UInt8 := 0xBF

/-- The first byte of a character of several bytes. Surrogates are let through. -/
def Partial.lead (a : UInt8) : Option Partial :=
  if 0xC2 ≤ a ∧ a ≤ 0xDF then some { owed := 1, bits := a.toNat % 32 }
  else if a = 0xE0 then some { owed := 2, bits := 0, low := 0xA0 }
  else if 0xE1 ≤ a ∧ a ≤ 0xEF then some { owed := 2, bits := a.toNat % 16 }
  else if a = 0xF0 then some { owed := 3, bits := 0, low := 0x90 }
  else if 0xF1 ≤ a ∧ a ≤ 0xF3 then some { owed := 3, bits := a.toNat % 8 }
  else if a = 0xF4 then some { owed := 3, bits := 4, high := 0x8F }
  else none

/-- UTF-8 from within a character or between two. -/
def decodeUtf8 : Option Partial → List UInt8 → Option Text
  | none, [] => some []
  | some _, [] => none
  | none, a :: rest =>
    if a < 0x80 then (decodeUtf8 none rest).map (a.toNat :: ·)
    else match Partial.lead a with
      | some p => decodeUtf8 (some p) rest
      | none => none
  | some p, b :: rest =>
    if p.low ≤ b ∧ b ≤ p.high then
      let bits := p.bits * 64 + b.toNat % 64
      if p.owed ≤ 1 then (decodeUtf8 none rest).map (bits :: ·)
      else decodeUtf8 (some { owed := p.owed - 1, bits }) rest
    else none

def isHigh (c : ℕ) : Bool := 0xD800 ≤ c && c ≤ 0xDBFF

def isLow (c : ℕ) : Bool := 0xDC00 ≤ c && c ≤ 0xDFFF

/-- The code point of a surrogate pair. -/
def join (high low : ℕ) : ℕ := 0x10000 + (high - 0xD800) * 1024 + (low - 0xDC00)

/-- Pairs of surrogates made code points, any other surrogate let through. -/
def joinPairs : List ℕ → Text
  | [] => []
  | [u] => [u]
  | u :: v :: rest => if isHigh u && isLow v then join u v :: joinPairs rest else u :: joinPairs (v :: rest)

/-- The units of UTF-16. -/
def units (little : Bool) : List UInt8 → Option (List ℕ)
  | [] => some []
  | [_] => none
  | a :: b :: rest =>
    (units little rest).map ((if little then b.toNat * 256 + a.toNat else a.toNat * 256 + b.toNat) :: ·)

def decodeUtf16 (little : Bool) (b : List UInt8) : Option Text := (units little b).map joinPairs

def decodeUtf32 (little : Bool) : List UInt8 → Option Text
  | [] => some []
  | a :: b :: c :: d :: rest =>
    let digits := if little then [d, c, b, a] else [a, b, c, d]
    let point := digits.foldl (fun n digit => n * 256 + digit.toNat) 0
    if point ≤ 0x10FFFF then (decodeUtf32 little rest).map (point :: ·) else none
  | _ => none

/-- `b.decode(detect_encoding(b), 'surrogatepass')` -/
def decode (b : List UInt8) : Option Text :=
  match detectEncoding b with
  | .utf8 => decodeUtf8 none b
  | .utf8Sig => decodeUtf8 none (b.drop 3)
  | .utf16 => decodeUtf16 (b.head? = some 0xFF) (b.drop 2)
  | .utf16be => decodeUtf16 false b
  | .utf16le => decodeUtf16 true b
  | .utf32 => decodeUtf32 (b.head? = some 0xFF) (b.drop 4)
  | .utf32be => decodeUtf32 false b
  | .utf32le => decodeUtf32 true b

/-- ASCII bytes are their own code points. -/
theorem decodeUtf8_ascii {b : List UInt8} (h : ∀ x ∈ b, x < 0x80) :
    decodeUtf8 none b = some (b.map UInt8.toNat) := by
  induction b with
  | nil => rfl
  | cons a rest ih =>
    rw [decodeUtf8, if_pos (h a List.mem_cons_self), ih fun x hx => h x (List.mem_cons_of_mem _ hx)]
    rfl

/-! ## Tokens -/

/-- A parsed value. Numbers are kept as they are spelled, `NaN` and the infinities among them. -/
inductive Value where
  | null
  | bool (b : Bool)
  | number (spelling : Text)
  | string (s : Text)
  | array (items : List Value)
  | object (members : List (Text × Value))

/-- A member of an object, the last of its name. No other value has members. -/
def Value.get? : Value → Text → Option (Option Value)
  | .object members, key => some ((members.reverse.find? fun member => member.1 = key).map Prod.snd)
  | _, _ => none

def isSpace (c : ℕ) : Bool := c = ' '.toNat || c = '\t'.toNat || c = '\n'.toNat || c = '\r'.toNat

def skipSpace (text : Text) : Text := text.dropWhile isSpace

def isDigit (c : ℕ) : Bool := '0'.toNat ≤ c && c ≤ '9'.toNat

/-- The value of a hexadecimal digit of either case. -/
def hexValue (c : ℕ) : Option ℕ :=
  if '0'.toNat ≤ c ∧ c ≤ '9'.toNat then some (c - '0'.toNat)
  else if 'a'.toNat ≤ c ∧ c ≤ 'f'.toNat then some (c - 'a'.toNat + 10)
  else if 'A'.toNat ≤ c ∧ c ≤ 'F'.toNat then some (c - 'A'.toNat + 10)
  else none

/-- The four hexadecimal digits behind `\u`. -/
def hex4 : Text → Option (ℕ × Text)
  | a :: b :: c :: d :: rest => do
    let a ← hexValue a
    let b ← hexValue b
    let c ← hexValue c
    let d ← hexValue d
    some (a * 4096 + b * 256 + c * 16 + d, rest)
  | _ => none

/-- The character behind a backslash; a pair of escaped surrogates is one character. -/
def scanEscape : Text → Option (ℕ × Text)
  | [] => none
  | e :: rest =>
    if e = 'u'.toNat then do
      let (high, rest) ← hex4 rest
      match rest with
      | b :: u :: tail =>
        if isHigh high ∧ b = '\\'.toNat ∧ u = 'u'.toNat then do
          let (low, tail) ← hex4 tail
          if isLow low then some (join high low, tail) else some (high, rest)
        else some (high, rest)
      | _ => some (high, rest)
    else if e = '"'.toNat ∨ e = '\\'.toNat ∨ e = '/'.toNat then some (e, rest)
    else if e = 'b'.toNat then some (8, rest)
    else if e = 'f'.toNat then some (12, rest)
    else if e = 'n'.toNat then some (10, rest)
    else if e = 'r'.toNat then some (13, rest)
    else if e = 't'.toNat then some (9, rest)
    else none

/-- `scanstring`, from behind the opening quote. There are at most so many characters. -/
def scanString : ℕ → Text → Option (Text × Text)
  | 0, _ => none
  | _ + 1, [] => none
  | fuel + 1, c :: rest =>
    if c = '"'.toNat then some ([], rest)
    else if c = '\\'.toNat then do
      let (c, rest) ← scanEscape rest
      let (s, rest) ← scanString fuel rest
      some (c :: s, rest)
    else if c < 32 then none
    else do
      let (s, rest) ← scanString fuel rest
      some (c :: s, rest)

/-- The sign of a number and what follows it. -/
def scanSign (signs : Text) : Text → Text × Text
  | [] => ([], [])
  | c :: rest => if c ∈ signs then ([c], rest) else ([], c :: rest)

/-- The integer part: a zero alone, or digits from another one on. -/
def scanInteger : Text → Option (Text × Text)
  | [] => none
  | c :: rest =>
    if c = '0'.toNat then some ([c], rest)
    else if isDigit c then some (c :: rest.takeWhile isDigit, rest.dropWhile isDigit)
    else none

/-- The fraction, if there is a digit behind the point. -/
def scanFraction : Text → Text × Text
  | c :: rest =>
    let digits := rest.takeWhile isDigit
    if c = '.'.toNat ∧ digits ≠ [] then (c :: digits, rest.dropWhile isDigit) else ([], c :: rest)
  | [] => ([], [])

/-- The exponent, if there is a digit behind its letter and sign. -/
def scanExponent : Text → Text × Text
  | c :: rest =>
    let (sign, tail) := scanSign (points "+-") rest
    let digits := tail.takeWhile isDigit
    if (c = 'e'.toNat ∨ c = 'E'.toNat) ∧ digits ≠ [] then (c :: sign ++ digits, tail.dropWhile isDigit)
    else ([], c :: rest)
  | [] => ([], [])

/-- `_match_number`. An integer of more than 4300 digits is refused. -/
def scanNumber (text : Text) : Option (Value × Text) := do
  let (sign, rest) := scanSign (points "-") text
  let (integer, rest) ← scanInteger rest
  let (fraction, rest) := scanFraction rest
  let (exponent, rest) := scanExponent rest
  if fraction = [] ∧ exponent = [] ∧ 4300 < integer.length then none
  else some (.number (sign ++ integer ++ fraction ++ exponent), rest)

/-- The words which are values. -/
def words : List (Text × Value) :=
  [(points "null", .null), (points "true", .bool true), (points "false", .bool false),
    (points "NaN", .number (points "NaN")), (points "Infinity", .number (points "Infinity")),
    (points "-Infinity", .number (points "-Infinity"))]

/-- A word or a number. -/
def scanWord (text : Text) : Option (Value × Text) :=
  match words.find? fun word => word.1.isPrefixOf text with
  | some (spelling, value) => some (value, text.drop spelling.length)
  | none => scanNumber text

/-- The text behind a character which must come next. -/
def expect (c : ℕ) : Text → Option Text
  | [] => none
  | d :: rest => if d = c then some rest else none

/-! ## Values -/

mutual

/-- `scan_once`. Values within the value are read with less fuel. -/
def scanOnce : ℕ → Text → Option (Value × Text)
  | 0, _ => none
  | _ + 1, [] => none
  | fuel + 1, c :: rest =>
    if c = '"'.toNat then (scanString fuel rest).map fun (s, rest) => (.string s, rest)
    else if c = '{'.toNat then
      match expect '}'.toNat (skipSpace rest) with
      | some rest => some (.object [], rest)
      | none => (scanMembers fuel (skipSpace rest)).map fun (members, rest) => (.object members, rest)
    else if c = '['.toNat then
      match expect ']'.toNat (skipSpace rest) with
      | some rest => some (.array [], rest)
      | none => (scanItems fuel (skipSpace rest)).map fun (items, rest) => (.array items, rest)
    else scanWord (c :: rest)

/-- The members of an object with one at least, and its closing brace. -/
def scanMembers : ℕ → Text → Option (List (Text × Value) × Text)
  | 0, _ => none
  | fuel + 1, text => do
    let rest ← expect '"'.toNat text
    let (key, rest) ← scanString fuel rest
    let rest ← expect ':'.toNat (skipSpace rest)
    let (value, rest) ← scanOnce fuel (skipSpace rest)
    match skipSpace rest with
    | [] => none
    | c :: rest =>
      if c = '}'.toNat then some ([(key, value)], rest)
      else if c = ','.toNat then
        (scanMembers fuel (skipSpace rest)).map fun (members, rest) => ((key, value) :: members, rest)
      else none

/-- The items of an array with one at least, and its closing bracket. -/
def scanItems : ℕ → Text → Option (List Value × Text)
  | 0, _ => none
  | fuel + 1, text => do
    let (value, rest) ← scanOnce fuel text
    match skipSpace rest with
    | [] => none
    | c :: rest =>
      if c = ']'.toNat then some ([value], rest)
      else if c = ','.toNat then
        (scanItems fuel (skipSpace rest)).map fun (items, rest) => (value :: items, rest)
      else none

end

/-- `json.loads` of a byte string. A value takes up a character at least, so the fuel is enough. -/
def loads (b : List UInt8) : Option Value := do
  let text ← decode b
  let (value, rest) ← scanOnce (text.length + 1) (skipSpace text)
  if skipSpace rest = [] then some value else none

/-! ## Objects of strings -/

/-- The digit of a number below sixteen, in lower case. -/
def hexDigit (n : ℕ) : ℕ := if n < 10 then '0'.toNat + n else 'a'.toNat + (n - 10)

/-- `\u` and four digits. -/
def escapeUnit (n : ℕ) : Text :=
  points "\\u" ++ [n / 4096 % 16, n / 256 % 16, n / 16 % 16, n % 16].map hexDigit

/-- A character within a string, in ASCII. -/
def escape (c : ℕ) : Text :=
  if c = '"'.toNat ∨ c = '\\'.toNat then ['\\'.toNat, c]
  else if 32 ≤ c ∧ c ≤ 126 then [c]
  else if c = 8 then points "\\b"
  else if c = 12 then points "\\f"
  else if c = 10 then points "\\n"
  else if c = 13 then points "\\r"
  else if c = 9 then points "\\t"
  else if c < 0x10000 then escapeUnit c
  else escapeUnit (0xD800 + (c - 0x10000) / 1024) ++ escapeUnit (0xDC00 + (c - 0x10000) % 1024)

def dumpsString (s : Text) : Text := '"'.toNat :: s.flatMap escape ++ ['"'.toNat]

/-- The members of an object with a comma between them, and its closing brace. -/
def dumpsMembers : List (Text × Text) → Text
  | [] => ['}'.toNat]
  | [(key, value)] => dumpsString key ++ points ": " ++ dumpsString value ++ ['}'.toNat]
  | (key, value) :: member :: rest =>
    dumpsString key ++ points ": " ++ dumpsString value ++ points ", " ++ dumpsMembers (member :: rest)

/-- `json.dumps` of an object whose values are strings. -/
def dumps (members : List (Text × Text)) : Text := '{'.toNat :: dumpsMembers members

/-- Strings which are written as they are. -/
def Plain (s : Text) : Prop := ∀ c ∈ s, 32 ≤ c ∧ c ≤ 126 ∧ c ≠ '"'.toNat ∧ c ≠ '\\'.toNat

theorem dumpsString_plain {s : Text} (h : Plain s) : dumpsString s = '"'.toNat :: (s ++ ['"'.toNat]) := by
  have hescape : s.flatMap escape = s := by
    induction s with
    | nil => rfl
    | cons c rest ih =>
      obtain ⟨hlow, hhigh, hquote, hslash⟩ := h c List.mem_cons_self
      have hc : escape c = [c] := by
        rw [escape, if_neg (by simp only [hquote, hslash, or_self, not_false_eq_true]), if_pos ⟨hlow, hhigh⟩]
      rw [List.flatMap_cons, hc, ih fun d hd => h d (List.mem_cons_of_mem _ hd), List.singleton_append]
  rw [dumpsString, hescape, List.cons_append]

/-- A plain string is read up to its closing quote. -/
theorem scanString_plain {s : Text} (h : Plain s) (rest : Text) {fuel : ℕ} (hfuel : s.length < fuel) :
    scanString fuel (s ++ '"'.toNat :: rest) = some (s, rest) := by
  induction s generalizing fuel with
  | nil =>
    cases fuel with
    | zero => exact absurd hfuel (Nat.not_lt_zero _)
    | succ fuel => rw [List.nil_append, scanString, if_pos rfl]
  | cons c tail ih =>
    cases fuel with
    | zero => exact absurd hfuel (Nat.not_lt_zero _)
    | succ fuel =>
      obtain ⟨hlow, -, hquote, hslash⟩ := h c List.mem_cons_self
      have htail := ih (fun d hd => h d (List.mem_cons_of_mem _ hd)) (Nat.lt_of_succ_lt_succ hfuel)
      rw [List.cons_append, scanString, if_neg hquote, if_neg hslash, if_neg (Nat.not_lt.mpr hlow), htail]
      rfl

theorem scanOnce_plain {s : Text} (h : Plain s) (rest : Text) {fuel : ℕ} (hfuel : s.length + 1 < fuel) :
    scanOnce fuel (dumpsString s ++ rest) = some (.string s, rest) := by
  cases fuel with
  | zero => exact absurd hfuel (Nat.not_lt_zero _)
  | succ fuel =>
    rw [dumpsString_plain h, List.cons_append, List.append_assoc, scanOnce, if_pos rfl, List.singleton_append,
      scanString_plain h rest (Nat.lt_of_succ_lt_succ hfuel)]
    rfl

/-- Members as `dumps` takes them, as a parsed object has them. -/
def stringMembers (members : List (Text × Text)) : List (Text × Value) :=
  members.map fun member => (member.1, .string member.2)

/-- A member is read up to what follows its value. -/
theorem scanMembers_head {key value : Text} (hkey : Plain key) (hvalue : Plain value) (c : ℕ) (tail : Text)
    (hspace : isSpace c = false) {fuel : ℕ} (hfuel : key.length + value.length + 1 < fuel) :
    scanMembers (fuel + 1) (dumpsString key ++ points ": " ++ dumpsString value ++ c :: tail) =
      if c = '}'.toNat then some ([(key, .string value)], tail)
      else if c = ','.toNat then
        (scanMembers fuel (skipSpace tail)).map fun (members, rest) => ((key, .string value) :: members, rest)
      else none := by
  let behind := dumpsString value ++ c :: tail
  have hquote : expect '"'.toNat (dumpsString key ++ points ": " ++ dumpsString value ++ c :: tail) =
      some (key ++ '"'.toNat :: (points ": " ++ behind)) := by
    rw [dumpsString_plain hkey]
    simp only [List.cons_append, List.append_assoc, List.nil_append, expect, if_true, behind]
  have hkeyRead := scanString_plain hkey (points ": " ++ behind) (show key.length < fuel by omega)
  have hcolon : expect ':'.toNat (skipSpace (points ": " ++ behind)) = some (' '.toNat :: behind) := rfl
  have hopen : skipSpace (' '.toNat :: behind) = behind := rfl
  have hvalueRead : scanOnce fuel behind = some (.string value, c :: tail) :=
    scanOnce_plain hvalue (c :: tail) (by omega)
  have hnext : skipSpace (c :: tail) = c :: tail := by
    rw [skipSpace, List.dropWhile_cons_of_neg (by simp only [hspace, Bool.false_eq_true, not_false_eq_true])]
  rw [scanMembers]
  simp only [hquote, hkeyRead, hcolon, hopen, hvalueRead, hnext, Option.bind_eq_bind, Option.bind_some]

theorem length_dumpsString {s : Text} (h : Plain s) : (dumpsString s).length = s.length + 2 := by
  rw [dumpsString_plain h, List.length_cons, List.length_append, List.length_singleton]

/-- The members of an object are read back from its text. -/
theorem scanMembers_dumps (member : Text × Text) (members : List (Text × Text))
    (hplain : ∀ m ∈ member :: members, Plain m.1 ∧ Plain m.2) (tail : Text) {fuel : ℕ}
    (hfuel : (dumpsMembers (member :: members)).length ≤ fuel) :
    scanMembers fuel (dumpsMembers (member :: members) ++ tail) = some (stringMembers (member :: members), tail) := by
  induction members generalizing member fuel with
  | nil =>
    obtain ⟨key, value⟩ := member
    obtain ⟨hkey, hvalue⟩ : Plain key ∧ Plain value := hplain _ List.mem_cons_self
    simp only [dumpsMembers, List.length_append, length_dumpsString hkey, length_dumpsString hvalue] at hfuel
    obtain ⟨fuel, rfl⟩ : ∃ n, fuel = n + 1 := ⟨fuel - 1, by omega⟩
    rw [dumpsMembers, List.append_assoc, List.singleton_append,
      scanMembers_head hkey hvalue _ tail rfl (by omega), if_pos rfl]
    rfl
  | cons next rest ih =>
    obtain ⟨key, value⟩ := member
    obtain ⟨hkey, hvalue⟩ : Plain key ∧ Plain value := hplain _ List.mem_cons_self
    simp only [dumpsMembers, List.length_append, length_dumpsString hkey, length_dumpsString hvalue] at hfuel
    obtain ⟨fuel, rfl⟩ : ∃ n, fuel = n + 1 := ⟨fuel - 1, by omega⟩
    have hnext := ih next (fun m hm => hplain m (List.mem_cons_of_mem _ hm)) (show _ ≤ fuel by omega)
    have hcomma : points ", " ++ (dumpsMembers (next :: rest) ++ tail) =
        ','.toNat :: (' '.toNat :: (dumpsMembers (next :: rest) ++ tail)) := rfl
    have hopen : skipSpace (' '.toNat :: (dumpsMembers (next :: rest) ++ tail)) =
        dumpsMembers (next :: rest) ++ tail := by
      cases rest <;> rfl
    rw [dumpsMembers, List.append_assoc, List.append_assoc, hcomma,
      scanMembers_head hkey hvalue _ _ rfl (by omega), if_neg (by decide), if_pos rfl, hopen, hnext]
    rfl

/-- A text is UTF-8 if it begins with two ASCII characters other than NUL. -/
theorem detectEncoding_ascii {a b : UInt8} (ha : 0 < a ∧ a < 0x80) (hb : 0 < b ∧ b < 0x80) (rest : List UInt8) :
    detectEncoding (a :: b :: rest) = .utf8 := by
  have hne : ∀ x : UInt8, x = 0 ∨ 0x80 ≤ x → (x == a) = false := by
    intro x hx
    rw [beq_eq_false_iff_ne]
    rintro rfl
    rcases hx with rfl | hx
    · exact absurd ha.1 (by decide)
    · exact absurd ha.2 (UInt8.not_lt.mpr hx)
  have hzero : ∀ x : UInt8, 0 < x → x ≠ 0 := by
    rintro x hx rfl
    exact absurd hx (by decide)
  simp only [detectEncoding, List.isPrefixOf, hne 0 (.inl rfl), hne 0xFF (.inr (by decide)),
    hne 0xFE (.inr (by decide)), hne 0xEF (.inr (by decide)), Bool.false_and, Bool.or_self, Bool.false_eq_true,
    if_false]
  match rest with
  | [] => simp only [if_neg (hzero a ha.1), if_neg (hzero b hb.1)]
  | [_] => rfl
  | _ :: _ :: _ => simp only [if_neg (hzero a ha.1), if_neg (hzero b hb.1)]

/-- The text of an object is printable ASCII. -/
theorem dumpsMembers_printable {members : List (Text × Text)} (hplain : ∀ m ∈ members, Plain m.1 ∧ Plain m.2) :
    ∀ c ∈ dumpsMembers members, 32 ≤ c ∧ c < 0x80 := by
  have hstring : ∀ {s : Text}, Plain s → ∀ c ∈ dumpsString s, 32 ≤ c ∧ c < 0x80 := by
    intro s hs c hc
    rw [dumpsString_plain hs, List.mem_cons, List.mem_append, List.mem_singleton] at hc
    rcases hc with rfl | hc | rfl
    · decide
    · exact ⟨(hs c hc).1, Nat.lt_of_le_of_lt (hs c hc).2.1 (by decide)⟩
    · decide
  have hcolon : ∀ c ∈ points ": ", 32 ≤ c ∧ c < 0x80 := by decide
  have hcomma : ∀ c ∈ points ", ", 32 ≤ c ∧ c < 0x80 := by decide
  have hbrace : ∀ c ∈ ['}'.toNat], 32 ≤ c ∧ c < 0x80 := by decide
  induction members with
  | nil => exact hbrace
  | cons member rest ih =>
    obtain ⟨key, value⟩ := member
    obtain ⟨hkey, hvalue⟩ : Plain key ∧ Plain value := hplain _ List.mem_cons_self
    have hrest := ih fun m hm => hplain m (List.mem_cons_of_mem _ hm)
    intro c hc
    cases rest with
    | nil =>
      simp only [dumpsMembers, List.mem_append] at hc
      rcases hc with ((hc | hc) | hc) | hc
      · exact hstring hkey c hc
      · exact hcolon c hc
      · exact hstring hvalue c hc
      · exact hbrace c hc
    | cons next rest =>
      simp only [dumpsMembers, List.mem_append] at hc
      rcases hc with (((hc | hc) | hc) | hc) | hc
      · exact hstring hkey c hc
      · exact hcolon c hc
      · exact hstring hvalue c hc
      · exact hcomma c hc
      · exact hrest c hc

theorem dumpsMembers_cons (member : Text × Text) (members : List (Text × Text)) :
    ∃ tail, dumpsMembers (member :: members) = '"'.toNat :: tail := by
  cases members with
  | nil => exact ⟨_, rfl⟩
  | cons next rest => exact ⟨_, rfl⟩

/-- Points below the size of a byte come back from the bytes they are written as. -/
theorem map_toUInt8 {text : Text} (h : ∀ c ∈ text, c < 0x80) : (text.map Nat.toUInt8).map UInt8.toNat = text := by
  rw [List.map_map]
  calc text.map (UInt8.toNat ∘ Nat.toUInt8) = text.map id := by
        apply List.map_congr_left
        intro c hc
        exact Nat.mod_eq_of_lt (Nat.lt_trans (h c hc) (by decide))
    _ = text := List.map_id _

/-- An ASCII text is decoded to its characters if its first two are not NUL. -/
theorem decode_ascii {a b : ℕ} {text : Text} (ha : 0 < a) (hb : 0 < b) (h : ∀ c ∈ a :: b :: text, c < 0x80) :
    decode ((a :: b :: text).map Nat.toUInt8) = some (a :: b :: text) := by
  have hbyte : ∀ c < 0x80, c.toUInt8 < 0x80 ∧ (0 < c → 0 < c.toUInt8) := by decide
  have hbytes : ∀ x ∈ (a :: b :: text).map Nat.toUInt8, x < 0x80 := by
    intro x hx
    obtain ⟨c, hc, rfl⟩ := List.mem_map.mp hx
    exact (hbyte c (h c hc)).1
  have hfirst {c : ℕ} (hc : c ∈ a :: b :: text) (hpos : 0 < c) : 0 < c.toUInt8 ∧ c.toUInt8 < 0x80 :=
    ⟨(hbyte c (h c hc)).2 hpos, (hbyte c (h c hc)).1⟩
  have hencoding : detectEncoding ((a :: b :: text).map Nat.toUInt8) = .utf8 :=
    detectEncoding_ascii (hfirst List.mem_cons_self ha)
      (hfirst (List.mem_cons_of_mem _ List.mem_cons_self) hb) _
  rw [decode, hencoding]
  exact (decodeUtf8_ascii hbytes).trans (congrArg some (map_toUInt8 h))

/-- An object of plain strings is read back from its text, which white space may follow. -/
theorem loads_dumps (member : Text × Text) (members : List (Text × Text))
    (hplain : ∀ m ∈ member :: members, Plain m.1 ∧ Plain m.2) {space : Text} (hspace : ∀ c ∈ space, isSpace c) :
    loads ((dumps (member :: members) ++ space).map Nat.toUInt8) =
      some (.object (stringMembers (member :: members))) := by
  obtain ⟨tail, htail⟩ := dumpsMembers_cons member members
  have hascii : ∀ c ∈ '{'.toNat :: '"'.toNat :: (tail ++ space), c < 0x80 := by
    intro c hc
    rw [← List.cons_append, ← htail, List.mem_cons, List.mem_append] at hc
    rcases hc with rfl | hc | hc
    · decide
    · exact (dumpsMembers_printable hplain c hc).2
    · have hsmall : isSpace c = true → c < 0x80 := by
        simp only [isSpace, Bool.or_eq_true, decide_eq_true_eq]
        rintro (((rfl | rfl) | rfl) | rfl) <;> decide
      exact hsmall (hspace c hc)
  have hopen : skipSpace ('{'.toNat :: '"'.toNat :: (tail ++ space)) = '{'.toNat :: '"'.toNat :: (tail ++ space) := rfl
  have hmembers : scanMembers ('{'.toNat :: '"'.toNat :: (tail ++ space)).length ('"'.toNat :: (tail ++ space)) =
      some (stringMembers (member :: members), space) := by
    rw [← List.cons_append, ← htail]
    apply scanMembers_dumps member members hplain
    rw [List.length_cons, List.length_append]
    omega
  have hbrace : expect '}'.toNat ('"'.toNat :: (tail ++ space)) = none := rfl
  have hskip : skipSpace ('"'.toNat :: (tail ++ space)) = '"'.toNat :: (tail ++ space) := rfl
  have hscan : scanOnce (('{'.toNat :: '"'.toNat :: (tail ++ space)).length + 1)
      ('{'.toNat :: '"'.toNat :: (tail ++ space)) = some (.object (stringMembers (member :: members)), space) := by
    rw [scanOnce, if_neg (by decide), if_pos rfl, hskip, hbrace, hmembers]
    rfl
  have hend : skipSpace space = [] := List.dropWhile_eq_nil_iff.mpr hspace
  rw [dumps, htail, List.cons_append, List.cons_append, loads, decode_ascii (by decide) (by decide) hascii]
  rw [Option.bind_eq_bind, Option.bind_some, hopen, hscan]
  exact if_pos hend

end Lms200.Json
