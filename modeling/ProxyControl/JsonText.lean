import ProxyControl.Json
import ProxyControl.Table

/-!
# Writing JSON and reading it back

A program that stores a value writes it as a text and reads the text later. The writer
here is compact and writes every character but the control characters, the quote and the
backslash as it is; the reader takes any JSON, and refuses what is nested too deep.

Not every value survives. An integer beyond 64 bits is read back as a float, of a key that
stands twice in an object only the last value remains, and a value that is nested deeper
than the reader goes is not read at all. `Fits` is what is left: on the values that fit,
reading what was written gives the value back (`loads_written`).

How floats are read is a parameter, `Floats`, with the one law that matters: a float is
read back from the digits it is written with.
-/

namespace Json

open List
open Table

/-! ## Writing -/

def writtenChar (c : Char) : List Char :=
  if c = '"' then ['\\', '"']
  else if c = '\\' then ['\\', '\\']
  else if c = '\n' then ['\\', 'n']
  else if c = '\r' then ['\\', 'r']
  else if c = '\t' then ['\\', 't']
  else if c.toNat = 8 then ['\\', 'b']
  else if c.toNat = 12 then ['\\', 'f']
  else if c.toNat < 32 then escapeCode c.toNat
  else [c]

def writtenString (text : String) : List Char :=
  '"' :: (text.toList.flatMap writtenChar ++ ['"'])

mutual

/-- **The compact text**, with the fields in their order. -/
def written : Json → List Char
  | .null => ['n', 'u', 'l', 'l']
  | .bool true => ['t', 'r', 'u', 'e']
  | .bool false => ['f', 'a', 'l', 's', 'e']
  | .int value => (toString value).toList
  | .float value => value.text .pydantic
  | .str text => writtenString text
  | .arr items => '[' :: (commas (writtenItems items) ++ [']'])
  | .obj fields => '{' :: (commas (writtenFields fields) ++ ['}'])

def writtenItems : List Json → List (List Char)
  | [] => []
  | item :: rest => written item :: writtenItems rest

def writtenFields : List (String × Json) → List (List Char)
  | [] => []
  | (key, value) :: rest => (writtenString key ++ ':' :: written value) :: writtenFields rest

end

/-! ## Reading -/

/-- How floats are read. -/
structure Floats where
  representable : Decimal → Prop
  read : List Char → Option Decimal
  read_text : ∀ value, representable value → read (value.text .pydantic) = some value

theorem Floats.of_none (value : Decimal) (h : False) : none = some value := h.elim

/-- No float is read, where only other values are of interest. -/
def Floats.none : Floats := ⟨fun _ => False, fun _ => .none, of_none⟩

def isSpace (c : Char) : Bool := c == ' ' || c == '\t' || c == '\n' || c == '\r'

def skip (text : List Char) : List Char := text.dropWhile isSpace

def isNumberChar (c : Char) : Bool :=
  c.isDigit || c == '-' || c == '+' || c == '.' || c == 'e' || c == 'E'

def isNatural (digits : List Char) : Bool :=
  digits.all Char.isDigit && (digits == ['0'] || digits.head?.any (· != '0'))

/-- The integer that a token is. Minus zero is a float. -/
def intLiteral : List Char → Option Int
  | '-' :: digits =>
    if isNatural digits && digits != ['0'] then some (-(Nat.ofDigitChars 10 digits 0 : Int))
    else none
  | digits => if isNatural digits then some (Nat.ofDigitChars 10 digits 0 : Int) else none

/-- What fits in a signed or an unsigned integer of 64 bits. -/
def inRange (value : Int) : Bool := -(2 ^ 63) ≤ value && value < 2 ^ 64

def readNumber (floats : Floats) (token : List Char) : Option Json :=
  match (intLiteral token).filter inRange with
  | some value => some (.int value)
  | none => (floats.read token).map .float

def hexValue (c : Char) : Option Nat :=
  if c.isDigit then some (c.toNat - 48)
  else if 'a' ≤ c ∧ c ≤ 'f' then some (c.toNat - 87)
  else if 'A' ≤ c ∧ c ≤ 'F' then some (c.toNat - 55)
  else none

def hexCode (a b c d : Char) : Option Nat := do
  let a ← hexValue a
  let b ← hexValue b
  let c ← hexValue c
  let d ← hexValue d
  return ((a * 16 + b) * 16 + c) * 16 + d

def unescape : Char → Option Char
  | '"' => some '"'
  | '\\' => some '\\'
  | '/' => some '/'
  | 'n' => some '\n'
  | 'r' => some '\r'
  | 't' => some '\t'
  | 'b' => some (Char.ofNat 8)
  | 'f' => some (Char.ofNat 12)
  | _ => none

/-- A text up to its closing quote, and what follows. Characters beyond the Basic
Multilingual Plane stand as two codes. -/
def readString : List Char → Option (List Char × List Char)
  | [] => none
  | '"' :: rest => some ([], rest)
  | '\\' :: 'u' :: a :: b :: c :: d :: rest =>
    match hexCode a b c d with
    | none => none
    | some code =>
      if code < 55296 ∨ 57344 ≤ code then
        (readString rest).map fun (text, rest) => (Char.ofNat code :: text, rest)
      else
        match rest with
        | '\\' :: 'u' :: e :: f :: g :: h :: rest =>
          match hexCode e f g h with
          | none => none
          | some low =>
            if code < 56320 ∧ 56320 ≤ low ∧ low < 57344 then
              (readString rest).map fun (text, rest) =>
                (Char.ofNat (65536 + (code - 55296) * 1024 + (low - 56320)) :: text, rest)
            else none
        | _ => none
  | '\\' :: c :: rest =>
    match unescape c with
    | none => none
    | some c => (readString rest).map fun (text, rest) => (c :: text, rest)
  | c :: rest =>
    if c = '\\' ∨ c.toNat < 32 then none
    else (readString rest).map fun (text, rest) => (c :: text, rest)

/-- A key with its colon, and what follows. -/
def readKey (text : List Char) : Option (String × List Char) :=
  match skip text with
  | '"' :: rest =>
    match readString rest with
    | none => none
    | some (key, rest) =>
      match skip rest with
      | ':' :: rest => some (String.ofList key, rest)
      | _ => none
  | _ => none

mutual

/-- A value, at most `depth - 1` containers deep, and what follows. -/
def readValue (floats : Floats) : Nat → Nat → List Char → Option (Json × List Char)
  | 0, _, _ => none
  | fuel + 1, depth, text =>
    match skip text with
    | 'n' :: 'u' :: 'l' :: 'l' :: rest => some (.null, rest)
    | 't' :: 'r' :: 'u' :: 'e' :: rest => some (.bool true, rest)
    | 'f' :: 'a' :: 'l' :: 's' :: 'e' :: rest => some (.bool false, rest)
    | '"' :: rest => (readString rest).map fun (text, rest) => (.str (String.ofList text), rest)
    | '[' :: rest =>
      if depth ≤ 1 then none
      else
        match skip rest with
        | ']' :: rest => some (.arr [], rest)
        | rest => (readItems floats fuel (depth - 1) rest).map fun (items, rest) =>
            (.arr items, rest)
    | '{' :: rest =>
      if depth ≤ 1 then none
      else
        match skip rest with
        | '}' :: rest => some (.obj [], rest)
        | rest => (readFields floats fuel (depth - 1) [] rest).map fun (fields, rest) =>
            (.obj fields, rest)
    | text =>
      (readNumber floats (text.takeWhile isNumberChar)).map fun value =>
        (value, text.dropWhile isNumberChar)

def readItems (floats : Floats) : Nat → Nat → List Char → Option (List Json × List Char)
  | 0, _, _ => none
  | fuel + 1, depth, text =>
    match readValue floats fuel depth text with
    | none => none
    | some (item, rest) =>
      match skip rest with
      | ']' :: rest => some ([item], rest)
      | ',' :: rest => (readItems floats fuel depth rest).map fun (items, rest) =>
          (item :: items, rest)
      | _ => none

/-- The fields, after those `seen`. -/
def readFields (floats : Floats) :
    Nat → Nat → List (String × Json) → List Char → Option (List (String × Json) × List Char)
  | 0, _, _, _ => none
  | fuel + 1, depth, seen, text =>
    match readKey text with
    | none => none
    | some (key, rest) =>
      match readValue floats fuel depth rest with
      | none => none
      | some (value, rest) =>
        let seen := put seen key value
        match skip rest with
        | '}' :: rest => some (seen, rest)
        | ',' :: rest => readFields floats fuel depth seen rest
        | _ => none

end

/-- **Read a text.** The limit is the number of containers it may not reach. -/
def loads (floats : Floats) (limit : Nat) (text : List Char) : Option Json :=
  match readValue floats (text.length + 1) limit text with
  | some (value, rest) => if skip rest = [] then some value else none
  | none => none

/-! ## Texts come back -/

theorem hexCode_escapeCode : ∀ n < 32, escapeCode n
      = ['\\', 'u', '0', '0', hexDigit (n / 16 % 16), hexDigit (n % 16)]
    ∧ hexCode '0' '0' (hexDigit (n / 16 % 16)) (hexDigit (n % 16)) = some n := by
  decide

theorem readString_writtenChar (c : Char) (rest : List Char) : readString (writtenChar c ++ rest)
      = (readString rest).map fun p => (c :: p.1, p.2) := by
  unfold writtenChar
  split
  next hc =>
    rw [hc]
    rfl
  split
  next hc =>
    rw [hc]
    rfl
  split
  next hc =>
    rw [hc]
    rfl
  split
  next hc =>
    rw [hc]
    rfl
  split
  next hc =>
    rw [hc]
    rfl
  have hof : ∀ n, c.toNat = n → c = Char.ofNat n := fun n hn => by rw [← hn, Char.ofNat_toNat]
  split
  next hc =>
    rw [hof 8 hc]
    rfl
  split
  next hc =>
    rw [hof 12 hc]
    rfl
  split
  next hcontrol =>
    obtain ⟨htext, hcode⟩ := hexCode_escapeCode c.toNat hcontrol
    rw [htext]
    show readString ('\\' :: 'u' :: '0' :: '0' :: _ :: _ :: rest) = _
    rw [readString, hcode]
    dsimp only
    rw [if_pos (.inl (by omega)), Char.ofNat_toNat]
  next hquote hslash _ _ _ _ _ hplain =>
    show readString (c :: rest) = _
    rw [readString.eq_def]
    split
    next heq => cases heq
    next heq =>
      cases heq
      exact absurd rfl hquote
    next heq =>
      cases heq
      exact absurd rfl hslash
    next heq =>
      cases heq
      exact absurd rfl hslash
    next heq =>
      cases heq
      rw [if_neg (by rintro (h | h); exacts [hslash h, hplain h])]

theorem readString_written (text rest : List Char) :
    readString (text.flatMap writtenChar ++ '"' :: rest) = some (text, rest) := by
  induction text with
  | nil => rfl
  | cons c text ih =>
    rw [flatMap_cons, append_assoc, readString_writtenChar, ih]
    rfl

/-! ## Numbers come back -/

/-- What follows a number is not part of it. -/
def Ends (rest : List Char) : Prop := ∀ c ∈ rest.head?, isNumberChar c = false

variable {rest tok : List Char}

theorem span_number (htoken : ∀ c ∈ tok, isNumberChar c = true) (hrest : Ends rest) :
    (tok ++ rest).takeWhile isNumberChar = tok ∧ (tok ++ rest).dropWhile isNumberChar = rest := by
  have hstop : rest.takeWhile isNumberChar = [] ∧ rest.dropWhile isNumberChar = rest := by
    cases rest with
    | nil => exact ⟨rfl, rfl⟩
    | cons c rest =>
      have hc : isNumberChar c = false := hrest c rfl
      simp [hc]
  constructor
  · rw [takeWhile_append_of_pos htoken, hstop.1, append_nil]
  · rw [dropWhile_append_of_pos htoken, hstop.2]

theorem isDigit_isNumberChar {c : Char} (h : c.isDigit = true) : isNumberChar c = true := by
  unfold isNumberChar
  rw [h]
  rfl

theorem head_toDigits {n : Nat} (h : n ≠ 0) : (Nat.toDigits 10 n).head?.any (· != '0') = true := by
  induction n using Nat.strong_induction_on with
  | _ n ih =>
    by_cases hsmall : n < 10
    · rw [Nat.toDigits_of_lt_base hsmall]
      have hdigit : ∀ n < 10, n ≠ 0 → Nat.digitChar n ≠ '0' := by decide
      simpa using hdigit n hsmall h
    · have hlarge : 10 ≤ n := by omega
      rw [Nat.toDigits_of_base_le (by omega) hlarge]
      have hrest := ih (n / 10) (by omega) (by omega)
      cases hdigs : Nat.toDigits 10 (n / 10) with
      | nil => exact absurd hdigs (Nat.toDigits_ne_nil)
      | cons c rest =>
        rw [hdigs] at hrest
        exact hrest

theorem isNatural_toDigits (n : Nat) : isNatural (Nat.toDigits 10 n) = true := by
  unfold isNatural
  rw [Bool.and_eq_true, Bool.or_eq_true]
  refine ⟨all_eq_true.mpr fun c hc => Nat.isDigit_of_mem_toDigits (by omega) (by omega) hc, ?_⟩
  by_cases hzero : n = 0
  · rw [hzero]
    exact .inl rfl
  · exact .inr (head_toDigits hzero)

theorem toList_toString (v : Int) : (toString v).toList
    = if 0 ≤ v then Nat.toDigits 10 v.toNat else '-' :: Nat.toDigits 10 (-v).toNat := by
  rw [Int.toString_eq_repr, Int.repr_eq_if]
  split
  · rw [Nat.repr_eq_ofList_toDigits, String.toList_ofList]
  · rw [Nat.repr_eq_ofList_toDigits, String.toList_append, String.toList_ofList,
      String.toList_ofList]
    rfl

theorem intLiteral_natural {ds : List Char} (h : isNatural ds = true) :
    intLiteral ds = some (Nat.ofDigitChars 10 ds 0 : Int) := by
  unfold intLiteral
  split
  · have hminus := all_eq_true.mp (Bool.and_eq_true_iff.mp h).1 '-' mem_cons_self
    cases hminus
  · rw [if_pos h]

theorem intLiteral_toString (value : Int) : intLiteral (toString value).toList = some value := by
  rw [toList_toString]
  split
  next hnn =>
    rw [intLiteral_natural (isNatural_toDigits _), Nat.ofDigitChars_ten_toDigits,
      Int.toNat_of_nonneg hnn]
  · have hne : (-value).toNat ≠ 0 := by omega
    have hzero : Nat.toDigits 10 (-value).toNat ≠ ['0'] := by
      intro heq
      have hhead := head_toDigits hne
      rw [heq] at hhead
      cases hhead
    rw [intLiteral, isNatural_toDigits, Bool.true_and, if_pos (bne_iff_ne.mpr hzero),
      Nat.ofDigitChars_ten_toDigits, Int.toNat_of_nonneg (by omega), Int.neg_neg]

theorem toString_ne_nil (v : Int) : (toString v).toList ≠ [] := by
  intro hnil
  have hrd := intLiteral_toString v
  rw [hnil] at hrd
  cases hrd

theorem number_toString (v : Int) : ∀ c ∈ (toString v).toList, isNumberChar c = true := by
  have hdigs : ∀ n, ∀ c ∈ Nat.toDigits 10 n, isNumberChar c = true := fun n c hc =>
    isDigit_isNumberChar (Nat.isDigit_of_mem_toDigits (by omega) (by omega) hc)
  intro c hc
  rw [toList_toString] at hc
  split at hc
  · exact hdigs _ c hc
  · rcases mem_cons.mp hc with rfl | hc
    · rfl
    · exact hdigs _ c hc

theorem intLiteral_eq_none {c : Char} (hc : c ∈ tok) (hdigit : c.isDigit = false)
    (hminus : c ≠ '-') : intLiteral tok = none := by
  have hnat : ∀ ds, c ∈ ds → isNatural ds = false := by
    intro ds hmem
    unfold isNatural
    rw [Bool.and_eq_false_iff]
    refine .inl (all_eq_false.mpr ⟨c, hmem, ?_⟩)
    rw [hdigit]
    exact Bool.false_ne_true
  unfold intLiteral
  split
  next ds =>
    rcases mem_cons.mp hc with heq | hmem
    · exact absurd heq hminus
    · rw [hnat ds hmem]
      rfl
  · rw [hnat tok hc]
    rfl

theorem number_digitChars (ds : List (Fin 10)) :
    ∀ c ∈ Decimal.digitChars ds, isNumberChar c = true := by
  have hdigit : ∀ d : Fin 10, isNumberChar (Nat.digitChar d.val) = true := by decide
  intro c hc
  obtain ⟨d, -, rfl⟩ := mem_map.mp hc
  exact hdigit d

theorem number_fixedText (ds : List (Fin 10)) (point : Int) :
    (∀ c ∈ Decimal.fixedText ds point, isNumberChar c = true)
      ∧ '.' ∈ Decimal.fixedText ds point := by
  have hzeros : ∀ n, ∀ c ∈ replicate n '0', isNumberChar c = true := by
    intro n c hc
    rw [eq_of_mem_replicate hc]
    rfl
  have hpoint : isNumberChar '.' = true := rfl
  have hzero : isNumberChar '0' = true := rfl
  unfold Decimal.fixedText
  split
  · refine ⟨?_, by simp⟩
    simp only [forall_mem_append, forall_mem_cons]
    exact ⟨⟨⟨hzero, hpoint, nofun⟩, hzeros _⟩, number_digitChars _⟩
  · split
    · refine ⟨?_, by simp⟩
      simp only [forall_mem_append, forall_mem_cons]
      exact ⟨⟨number_digitChars _, hzeros _⟩, hpoint, hzero, nofun⟩
    · refine ⟨?_, by simp⟩
      simp only [forall_mem_append, forall_mem_cons]
      exact ⟨number_digitChars _, hpoint, number_digitChars _⟩

theorem number_exponentText (style : Decimal.Style) (exponent : Int) :
    ∀ c ∈ Decimal.exponentText style exponent, isNumberChar c = true := by
  have hdigs : ∀ c ∈ Nat.toDigits 10 exponent.natAbs, isNumberChar c = true := fun c hc =>
    isDigit_isNumberChar (Nat.isDigit_of_mem_toDigits (by omega) (by omega) hc)
  intro c hc
  rcases mem_cons.mp hc with rfl | hc
  · split <;> rfl
  · split at hc
    · rcases mem_cons.mp hc with rfl | hc
      · rfl
      · exact hdigs c hc
    · exact hdigs c hc

theorem number_scientificText (style : Decimal.Style) (ds : List (Fin 10)) (exponent : Int) :
    (∀ c ∈ Decimal.scientificText style ds exponent, isNumberChar c = true)
      ∧ 'e' ∈ Decimal.scientificText style ds exponent := by
  unfold Decimal.scientificText
  refine ⟨?_, by simp⟩
  simp only [forall_mem_append, forall_mem_cons]
  refine ⟨⟨number_digitChars _, ?_⟩, rfl, number_exponentText style exponent⟩
  split
  · exact nofun
  · rw [forall_mem_cons]
    exact ⟨rfl, number_digitChars _⟩

/-- The text of a float is a number that is not an integer. -/
theorem number_text (style : Decimal.Style) (v : Decimal) :
    (∀ c ∈ v.text style, isNumberChar c = true) ∧ intLiteral (v.text style) = none
      ∧ v.text style ≠ [] := by
  have hsign : ∀ c ∈ (if v.negative then ['-'] else []), isNumberChar c = true := by
    intro c hc
    split at hc
    · rw [mem_singleton.mp hc]
      rfl
    · exact absurd hc not_mem_nil
  have hbody : (∀ c ∈ (if style.least < v.exponent + 1 ∧ v.exponent + 1 ≤ 16 then
        Decimal.fixedText v.digits (v.exponent + 1)
      else Decimal.scientificText style v.digits v.exponent), isNumberChar c = true)
      ∧ ∃ c ∈ (if style.least < v.exponent + 1 ∧ v.exponent + 1 ≤ 16 then
        Decimal.fixedText v.digits (v.exponent + 1)
      else Decimal.scientificText style v.digits v.exponent), c.isDigit = false ∧ c ≠ '-' := by
    split
    · obtain ⟨hall, hpoint⟩ := number_fixedText v.digits (v.exponent + 1)
      exact ⟨hall, '.', hpoint, by decide, by decide⟩
    · obtain ⟨hall, hexp⟩ := number_scientificText style v.digits v.exponent
      exact ⟨hall, 'e', hexp, by decide, by decide⟩
  obtain ⟨hall, c, hc, hdigit, hminus⟩ := hbody
  exact ⟨forall_mem_append.mpr ⟨hsign, hall⟩,
    intLiteral_eq_none (mem_append_right _ hc) hdigit hminus,
    ne_nil_of_mem (mem_append_right _ hc)⟩

/-! ## Values come back -/

mutual

/-- **The value fits**: integers of 64 bits, floats that exist, no key twice, and at most
so many containers in one another. -/
def Fits (floats : Floats) : Json → Nat → Prop
  | .null, _ | .bool _, _ | .str _, _ => True
  | .int value, _ => inRange value = true
  | .float value, _ => floats.representable value
  | .arr items, depth => 0 < depth ∧ FitsItems floats items (depth - 1)
  | .obj fields, depth =>
    0 < depth ∧ (fields.map Prod.fst).Nodup ∧ FitsFields floats fields (depth - 1)

def FitsItems (floats : Floats) : List Json → Nat → Prop
  | [], _ => True
  | item :: rest, depth => Fits floats item depth ∧ FitsItems floats rest depth

def FitsFields (floats : Floats) : List (String × Json) → Nat → Prop
  | [], _ => True
  | (_, value) :: rest, depth => Fits floats value depth ∧ FitsFields floats rest depth

end

variable {fl : Floats} {depth : Nat} {fs seen : List (String × Json)} {value : Json}
  {key : String} {text : List Char}

theorem fitsItems_iff {items : List Json} :
    FitsItems fl items depth ↔ ∀ item ∈ items, Fits fl item depth := by
  induction items with
  | nil => simp [FitsItems]
  | cons item rest ih => rw [FitsItems, ih, forall_mem_cons]

theorem fitsFields_iff : FitsFields fl fs depth ↔ ∀ field ∈ fs, Fits fl field.2 depth := by
  induction fs with
  | nil => simp [FitsFields]
  | cons field rest ih => rw [FitsFields, ih, forall_mem_cons]

mutual

/-- The fuel that reading a value takes. -/
def fuelOf : Json → Nat
  | .arr items => 1 + fuelOfItems items
  | .obj fields => 1 + fuelOfFields fields
  | _ => 1

def fuelOfItems : List Json → Nat
  | [] => 0
  | item :: rest => 1 + fuelOf item + fuelOfItems rest

def fuelOfFields : List (String × Json) → Nat
  | [] => 0
  | (_, value) :: rest => 1 + fuelOf value + fuelOfFields rest

end

theorem skip_cons {c : Char} (h : isSpace c = false) (rest : List Char) :
    skip (c :: rest) = c :: rest := by
  unfold skip
  rw [dropWhile_cons, h]
  rfl

theorem not_space_of_number {c : Char} (h : isNumberChar c = true) : isSpace c = false := by
  rw [← Bool.not_eq_true]
  intro hspace
  unfold isSpace at hspace
  simp only [Bool.or_eq_true, beq_iff_eq] at hspace
  rcases hspace with ((rfl | rfl) | rfl) | rfl <;> cases h

theorem readValue_number (hne : tok ≠ []) (htoken : ∀ c ∈ tok, isNumberChar c = true)
    (hrest : Ends rest) (fuel depth : Nat) :
    readValue fl (fuel + 1) depth (tok ++ rest)
      = (readNumber fl tok).map fun value => (value, rest) := by
  obtain ⟨htake, hdrop⟩ := span_number htoken hrest
  cases tok with
  | nil => exact absurd rfl hne
  | cons c tok =>
    have hc : isNumberChar c = true := htoken c mem_cons_self
    have hskip : skip (c :: tok ++ rest) = c :: tok ++ rest :=
      skip_cons (not_space_of_number hc) (tok ++ rest)
    rw [readValue, hskip]
    -- A number begins with none of the characters that begin something else.
    have hother : ∀ {d : Char} {tail : List Char}, c :: tok ++ rest = d :: tail →
        isNumberChar d = false → False := by
      intro d tail heq hd
      rw [← (cons.inj heq).1, hc] at hd
      cases hd
    split
    iterate 6 next heq => exact (hother heq rfl).elim
    rw [htake, hdrop]

/-- A text begins with a character that ends nothing. -/
theorem written_head (v : Json) : ∃ c rest, written v = c :: rest
    ∧ isSpace c = false ∧ c ≠ ']' := by
  have hnum : ∀ tok : List Char, tok ≠ [] → (∀ c ∈ tok, isNumberChar c = true) →
      ∃ c rest, tok = c :: rest ∧ isSpace c = false ∧ c ≠ ']' := by
    intro tok hne htoken
    cases tok with
    | nil => exact absurd rfl hne
    | cons c rest =>
      have hc := htoken c mem_cons_self
      refine ⟨c, rest, rfl, not_space_of_number hc, ?_⟩
      rintro rfl
      cases hc
  cases v with
  | null => exact ⟨_, _, rfl, rfl, by decide⟩
  | bool v => cases v <;> exact ⟨_, _, rfl, rfl, by decide⟩
  | int v => exact hnum _ (toString_ne_nil v) (number_toString v)
  | float v =>
    obtain ⟨htext, -, hne⟩ := number_text .pydantic v
    exact hnum _ hne htext
  | str text | arr items | obj fs => exact ⟨_, _, rfl, rfl, by decide⟩

theorem length_pos (v : Json) : 1 ≤ (written v).length := by
  obtain ⟨c, rest, heq, -, -⟩ := written_head v
  rw [heq, length_cons]
  omega

theorem commas_cons_cons (part next : List Char) (rest : List (List Char)) :
    commas (part :: next :: rest) = part ++ ',' :: commas (next :: rest) := rfl

theorem ends_cons {c : Char} (h : isNumberChar c = false) (rest : List Char) :
    Ends (c :: rest) := by
  intro d hd
  cases hd
  exact h

theorem fresh_of_nodup (h : ((seen ++ (key, value) :: fs).map Prod.fst).Nodup) :
    key ∉ seen.map Prod.fst := by
  rw [map_append, map_cons, nodup_append] at h
  intro hmem
  exact h.2.2 key hmem key mem_cons_self rfl

theorem readValue_arr {c : Char} {inner : List Char} {fuel limit : Nat} (hlimit : 1 < limit)
    (hspace : isSpace c = false) (hclose : c ≠ ']') :
    readValue fl (fuel + 1) limit ('[' :: c :: inner)
      = (readItems fl fuel (limit - 1) (c :: inner)).map fun p => (.arr p.1, p.2) := by
  rw [readValue, skip_cons rfl]
  show (if limit ≤ 1 then none else match skip (c :: inner) with
    | ']' :: rest => some (Json.arr [], rest)
    | rest => (readItems fl fuel (limit - 1) rest).map fun p => (.arr p.1, p.2)) = _
  rw [if_neg (by omega), skip_cons hspace]
  split
  next heq => exact absurd (cons.inj heq).1 hclose
  · rfl

theorem readValue_obj {inner : List Char} {fuel limit : Nat} (hlimit : 1 < limit) :
    readValue fl (fuel + 1) limit ('{' :: '"' :: inner)
      = (readFields fl fuel (limit - 1) [] ('"' :: inner)).map fun p => (.obj p.1, p.2) := by
  rw [readValue, skip_cons rfl]
  show (if limit ≤ 1 then none else match skip ('"' :: inner) with
    | '}' :: rest => some (Json.obj [], rest)
    | rest => (readFields fl fuel (limit - 1) [] rest).map fun p => (.obj p.1, p.2)) = _
  rw [if_neg (by omega), skip_cons rfl]
  rfl

/-- An item is read, and then what follows decides. -/
theorem readItems_item {item : Json} {fuel limit : Nat}
    (hread : readValue fl fuel limit text = some (item, rest)) :
    readItems fl (fuel + 1) limit text = match skip rest with
      | ']' :: rest => some ([item], rest)
      | ',' :: rest => (readItems fl fuel limit rest).map fun p => (item :: p.1, p.2)
      | _ => none := by
  rw [readItems, hread]

theorem readKey_written (key : String) (rest : List Char) :
    readKey (writtenString key ++ ':' :: rest) = some (key, rest) := by
  have htext : writtenString key ++ ':' :: rest
      = '"' :: (key.toList.flatMap writtenChar ++ '"' :: ':' :: rest) := by
    rw [writtenString, cons_append, append_assoc]
    rfl
  rw [htext, readKey, skip_cons rfl]
  show (match readString (key.toList.flatMap writtenChar ++ '"' :: ':' :: rest) with
    | none => none
    | some (key, rest) =>
      match skip rest with
      | ':' :: rest => some (String.ofList key, rest)
      | _ => none) = _
  rw [readString_written]
  show some (String.ofList key.toList, rest) = _
  rw [String.ofList_toList]

theorem readFields_field {fuel limit : Nat}
    (hread : readValue fl fuel limit text = some (value, rest)) :
    readFields fl (fuel + 1) limit seen (writtenString key ++ ':' :: text) = match skip rest with
        | '}' :: rest => some (put seen key value, rest)
        | ',' :: rest => readFields fl fuel limit (put seen key value) rest
        | _ => none := by
  rw [readFields, readKey_written]
  dsimp only
  rw [hread]

theorem readValue_str {text : String} {fuel limit : Nat} :
    readValue fl (fuel + 1) limit (writtenString text ++ rest) = some (.str text, rest) := by
  have htext : writtenString text ++ rest
      = '"' :: (text.toList.flatMap writtenChar ++ '"' :: rest) := by
    rw [writtenString, cons_append, append_assoc]
    rfl
  rw [htext, readValue, skip_cons rfl]
  show (readString (text.toList.flatMap writtenChar ++ '"' :: rest)).map _ = _
  rw [readString_written]
  show some (Json.str (String.ofList text.toList), rest) = _
  rw [String.ofList_toList]

theorem readValue_int {v : Int} {fuel limit : Nat} (hrange : inRange v = true) (hrest : Ends rest) :
    readValue fl (fuel + 1) limit ((toString v).toList ++ rest) = some (.int v, rest) := by
  rw [readValue_number (toString_ne_nil v) (number_toString v) hrest]
  unfold readNumber
  rw [intLiteral_toString, Option.filter_some, hrange]
  rfl

theorem readValue_float {v : Decimal} {fuel limit : Nat} (hfloat : fl.representable v)
    (hrest : Ends rest) :
    readValue fl (fuel + 1) limit (v.text .pydantic ++ rest) = some (.float v, rest) := by
  obtain ⟨htext, hliteral, hne⟩ := number_text .pydantic v
  rw [readValue_number hne htext hrest]
  unfold readNumber
  rw [hliteral, fl.read_text v hfloat]
  rfl

mutual

/-- Reading what was written gives the value, and what follows it. The induction is on
the value; the depth goes down with the containers, the fuel with every call. -/
theorem readValue_written : ∀ (value : Json) {fuel depth limit : Nat} {rest : List Char},
    Fits fl value depth → depth < limit → fuelOf value ≤ fuel → Ends rest →
      readValue fl fuel limit (written value ++ rest) = some (value, rest)
  | value, 0, _, _, _, _, _, hfuel, _ => by
    cases value <;> simp [fuelOf] at hfuel
  | .null, fuel + 1, _, _, rest, _, _, _, _ => by
    rw [readValue]
    rfl
  | .bool true, fuel + 1, _, _, rest, _, _, _, _ => by
    rw [readValue]
    rfl
  | .bool false, fuel + 1, _, _, rest, _, _, _, _ => by
    rw [readValue]
    rfl
  | .int _, _ + 1, _, _, _, hfits, _, _, hrest => readValue_int hfits hrest
  | .float _, _ + 1, _, _, _, hfits, _, _, hrest => readValue_float hfits hrest
  | .str _, _ + 1, _, _, _, _, _, _, _ => readValue_str
  | .arr [], fuel + 1, depth, limit, rest, hfits, hlimit, _, _ => by
    rw [Fits] at hfits
    rw [readValue, written, writtenItems]
    show (if limit ≤ 1 then none else some (Json.arr [], rest)) = _
    rw [if_neg (by omega)]
  | .arr (item :: items), fuel + 1, depth, limit, rest, hfits, hlimit, hfuel, hrest => by
    rw [Fits] at hfits
    rw [fuelOf] at hfuel
    obtain ⟨c, tail, hhead, hspace, hclose⟩ := written_head item
    have hread : readItems fl fuel (limit - 1)
        (commas (writtenItems (item :: items)) ++ ']' :: rest) = some (item :: items, rest) :=
      readItems_written (item :: items) (cons_ne_nil item items) hfits.2 (by omega) (by omega)
    obtain ⟨inner, hinner⟩ : ∃ inner,
        commas (writtenItems (item :: items)) ++ ']' :: rest = c :: inner := by
      cases items with
      | nil => exact ⟨tail ++ ']' :: rest, by rw [writtenItems, writtenItems, commas, hhead]; rfl⟩
      | cons next items =>
        rw [writtenItems, writtenItems, commas_cons_cons, hhead]
        exact ⟨_, rfl⟩
    have htext : written (.arr (item :: items)) ++ rest
        = '[' :: (commas (writtenItems (item :: items)) ++ ']' :: rest) := by
      rw [written, cons_append, append_assoc]
      rfl
    rw [htext, hinner, readValue_arr (by omega) hspace hclose, ← hinner, hread]
    rfl
  | .obj [], fuel + 1, depth, limit, rest, hfits, hlimit, _, _ => by
    rw [Fits] at hfits
    rw [readValue, written, writtenFields]
    show (if limit ≤ 1 then none else some (Json.obj [], rest)) = _
    rw [if_neg (by omega)]
  | .obj ((key, value) :: fs), fuel + 1, depth, limit, rest, hfits, hlimit, hfuel, hrest => by
    rw [Fits] at hfits
    rw [fuelOf] at hfuel
    have hread : readFields fl fuel (limit - 1) []
        (commas (writtenFields ((key, value) :: fs)) ++ '}' :: rest)
          = some ((key, value) :: fs, rest) :=
      readFields_written ((key, value) :: fs) (cons_ne_nil _ fs) hfits.2.1
        hfits.2.2 (by omega) (by omega)
    obtain ⟨inner, hinner⟩ : ∃ inner,
        commas (writtenFields ((key, value) :: fs)) ++ '}' :: rest = '"' :: inner := by
      cases fs with
      | nil =>
        rw [writtenFields, writtenFields, commas, writtenString]
        exact ⟨_, rfl⟩
      | cons next fs =>
        obtain ⟨nextKey, nextValue⟩ := next
        rw [writtenFields, writtenFields, commas_cons_cons, writtenString]
        exact ⟨_, rfl⟩
    have htext : written (.obj ((key, value) :: fs)) ++ rest
        = '{' :: (commas (writtenFields ((key, value) :: fs)) ++ '}' :: rest) := by
      rw [written, cons_append, append_assoc]
      rfl
    rw [htext, hinner, readValue_obj (by omega), ← hinner, hread]
    rfl

theorem readItems_written : ∀ (items : List Json) {fuel depth limit : Nat} {rest : List Char},
    items ≠ [] → FitsItems fl items depth → depth < limit → fuelOfItems items ≤ fuel →
      readItems fl fuel limit (commas (writtenItems items) ++ ']' :: rest) = some (items, rest)
  | [], _, _, _, _, hne, _, _, _ => absurd rfl hne
  | item :: _, 0, _, _, _, _, _, _, hfuel => by
    rw [fuelOfItems] at hfuel
    omega
  | [item], fuel + 1, depth, limit, rest, _, hfits, hlimit, hfuel => by
    rw [FitsItems] at hfits
    rw [fuelOfItems] at hfuel
    have hread : readValue fl fuel limit (written item ++ ']' :: rest) = some (item, ']' :: rest) :=
      readValue_written item hfits.1 hlimit (by omega) (ends_cons rfl rest)
    rw [writtenItems, writtenItems, commas, readItems_item hread, skip_cons rfl]
    rfl
  | item :: next :: items, fuel + 1, depth, limit, rest, _, hfits, hlimit, hfuel => by
    rw [FitsItems] at hfits
    rw [fuelOfItems] at hfuel
    have hread : readValue fl fuel limit
        (written item ++ ',' :: (commas (writtenItems (next :: items)) ++ ']' :: rest))
          = some (item, ',' :: (commas (writtenItems (next :: items)) ++ ']' :: rest)) :=
      readValue_written item hfits.1 hlimit (by omega) (ends_cons rfl _)
    have hrest : readItems fl fuel limit
        (commas (writtenItems (next :: items)) ++ ']' :: rest) = some (next :: items, rest) :=
      readItems_written (next :: items) (cons_ne_nil next items) hfits.2 hlimit (by omega)
    have htext : commas (writtenItems (item :: next :: items)) ++ ']' :: rest
        = written item ++ ',' :: (commas (writtenItems (next :: items)) ++ ']' :: rest) := by
      rw [writtenItems, writtenItems, commas_cons_cons, append_assoc]
      rfl
    rw [htext, readItems_item hread, skip_cons rfl]
    show (readItems fl fuel limit _).map _ = _
    rw [hrest]
    rfl

theorem readFields_written : ∀ (fs : List (String × Json)) {fuel depth limit : Nat}
    {seen : List (String × Json)} {rest : List Char},
    fs ≠ [] → ((seen ++ fs).map Prod.fst).Nodup → FitsFields fl fs depth →
      depth < limit → fuelOfFields fs ≤ fuel →
      readFields fl fuel limit seen (commas (writtenFields fs) ++ '}' :: rest)
        = some (seen ++ fs, rest)
  | [], _, _, _, _, _, hne, _, _, _, _ => absurd rfl hne
  | (_, _) :: _, 0, _, _, _, _, _, _, _, _, hfuel => by
    rw [fuelOfFields] at hfuel
    omega
  | [(key, v)], fuel + 1, depth, limit, seen, rest, _, hkeys, hfits, hlimit, hfuel => by
    rw [FitsFields] at hfits
    rw [fuelOfFields] at hfuel
    have hread : readValue fl fuel limit (written v ++ '}' :: rest) = some (v, '}' :: rest) :=
      readValue_written v hfits.1 hlimit (by omega) (ends_cons rfl rest)
    have htext : commas (writtenFields [(key, v)]) ++ '}' :: rest
        = writtenString key ++ ':' :: (written v ++ '}' :: rest) := by
      rw [writtenFields, writtenFields, commas, append_assoc]
      rfl
    rw [htext, readFields_field hread, skip_cons rfl]
    show some (put seen key v, rest) = _
    rw [put_of_not_mem (fresh_of_nodup hkeys)]
  | (key, v) :: next :: fs, fuel + 1, depth, limit, seen, rest, _, hkeys, hfits, hlimit, hfuel => by
    rw [FitsFields] at hfits
    rw [fuelOfFields] at hfuel
    obtain ⟨nextKey, nextValue⟩ := next
    have hread : readValue fl fuel limit (written v
          ++ ',' :: (commas (writtenFields ((nextKey, nextValue) :: fs)) ++ '}' :: rest))
        = some (v, ',' :: (commas (writtenFields ((nextKey, nextValue) :: fs)) ++ '}' :: rest)) :=
      readValue_written v hfits.1 hlimit (by omega) (ends_cons rfl _)
    have hmore : readFields fl fuel limit (seen ++ [(key, v)])
        (commas (writtenFields ((nextKey, nextValue) :: fs)) ++ '}' :: rest)
          = some (seen ++ [(key, v)] ++ (nextKey, nextValue) :: fs, rest) :=
      readFields_written ((nextKey, nextValue) :: fs) (cons_ne_nil _ fs)
        (by rw [append_assoc]; exact hkeys) hfits.2 hlimit (by omega)
    have htext : commas (writtenFields ((key, v) :: (nextKey, nextValue) :: fs)) ++ '}' :: rest
        = writtenString key ++ ':' :: (written v
          ++ ',' :: (commas (writtenFields ((nextKey, nextValue) :: fs)) ++ '}' :: rest)) := by
      rw [writtenFields, writtenFields, commas_cons_cons, append_assoc, append_assoc]
      rfl
    rw [htext, readFields_field hread, skip_cons rfl]
    show readFields fl fuel limit (put seen key v) _ = _
    rw [put_of_not_mem (fresh_of_nodup hkeys), hmore, append_assoc]
    rfl

end

mutual

/-- A text is at least as long as reading it takes fuel. -/
theorem fuelOf_le_length : ∀ value : Json, fuelOf value ≤ (written value).length
  | .null => by decide
  | .bool true => by decide
  | .bool false => by decide
  | .int value => length_pos (.int value)
  | .float value => length_pos (.float value)
  | .str text => length_pos (.str text)
  | .arr items => by
    have hitems := fuelOfItems_le_length items
    rw [fuelOf, written, length_cons, length_append, length_singleton]
    omega
  | .obj fs => by
    have hflds := fuelOfFields_le_length fs
    rw [fuelOf, written, length_cons, length_append, length_singleton]
    omega

theorem fuelOfItems_le_length : ∀ items : List Json,
    fuelOfItems items ≤ (commas (writtenItems items)).length + 1
  | [] => by decide
  | [item] => by
    have hitem := fuelOf_le_length item
    rw [fuelOfItems, fuelOfItems, writtenItems, writtenItems, commas]
    omega
  | item :: next :: items => by
    have hitem := fuelOf_le_length item
    have hrest := fuelOfItems_le_length (next :: items)
    rw [fuelOfItems, writtenItems]
    rw [writtenItems] at hrest ⊢
    rw [commas_cons_cons, length_append, length_cons]
    omega

theorem fuelOfFields_le_length : ∀ fs : List (String × Json),
    fuelOfFields fs ≤ (commas (writtenFields fs)).length + 1
  | [] => by decide
  | [(key, value)] => by
    have hvalue := fuelOf_le_length value
    rw [fuelOfFields, fuelOfFields, writtenFields, writtenFields, commas, length_append,
      length_cons]
    omega
  | (key, value) :: (nextKey, next) :: fs => by
    have hvalue := fuelOf_le_length value
    have hrest := fuelOfFields_le_length ((nextKey, next) :: fs)
    rw [fuelOfFields, writtenFields]
    rw [writtenFields] at hrest ⊢
    rw [commas_cons_cons, length_append, length_append, length_cons, length_cons]
    omega

end

/-- **What was written is read back**, if it fits and is not nested too deep. -/
theorem loads_written {limit : Nat} (hfits : Fits fl value depth) (hlimit : depth < limit) :
    loads fl limit (written value) = some value := by
  have hread : readValue fl ((written value).length + 1) limit (written value ++ [])
      = some (value, []) :=
    readValue_written value hfits hlimit (Nat.le_succ_of_le (fuelOf_le_length value)) nofun
  rw [append_nil] at hread
  unfold loads
  rw [hread]
  rfl

end Json
