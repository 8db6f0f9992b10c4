import ProxyControl.Decimals

/-!
# What a canonical text determines

Programs that hash a value hash its canonical text. Two values have the same text
exactly when they are equal up to the order of the fields of their objects
(`canonical_eq_iff`): the text is that of the value in *normal form* (`normal`), all
fields in the order of their keys, and a text that is written without sorting
(`plain`) determines its value.

The last is unique decoding. A value is known by its first character; a number ends
where something follows that is not part of a number, a text at its quote, and an
array or an object at its bracket.

This is of values as they are read (`Proper`): no object has a key twice, and floats
are kept by their shortest digits.
-/

namespace Json

open List

/-! ## Escapes come back -/

theorem hexValue_hexDigit : ∀ n < 16, hexValue (hexDigit n) = some n := by
  decide

theorem hexCode_digits {n : Nat} (h : n < 65536) :
    hexCode (hexDigit (n / 4096 % 16)) (hexDigit (n / 256 % 16)) (hexDigit (n / 16 % 16))
      (hexDigit (n % 16)) = some n := by
  have hdig : ∀ m, hexValue (hexDigit (m % 16)) = some (m % 16) :=
    fun m => hexValue_hexDigit _ (Nat.mod_lt m (by omega))
  unfold hexCode
  rw [hdig, hdig, hdig, hdig]
  show some _ = some n
  congr 1
  omega

/-- One code stands for one character. -/
theorem readString_escapeCode {n : Nat} (h : n < 65536) (hpln : n < 55296 ∨ 57344 ≤ n)
    (rest : List Char) :
    readString (escapeCode n ++ rest) = (readString rest).map fun p => (Char.ofNat n :: p.1, p.2) := by
  show readString ('\\' :: 'u' :: _ :: _ :: _ :: _ :: rest) = _
  rw [readString, hexCode_digits h]
  dsimp only
  rw [if_pos hpln]

/-- Two codes stand for one character beyond. -/
theorem readString_escapePair {high low : Nat} (hhigh : 55296 ≤ high ∧ high < 56320)
    (hlow : 56320 ≤ low ∧ low < 57344) (rest : List Char) :
    readString (escapeCode high ++ escapeCode low ++ rest) = (readString rest).map fun p =>
      (Char.ofNat (65536 + (high - 55296) * 1024 + (low - 56320)) :: p.1, p.2) := by
  show readString ('\\' :: 'u' :: _ :: _ :: _ :: _ :: '\\' :: 'u' :: _ :: _ :: _ :: _ :: rest) = _
  rw [readString, hexCode_digits (by omega)]
  dsimp only
  rw [if_neg (by omega)]
  split
  next heq =>
    cases heq
    rw [hexCode_digits (by omega)]
    dsimp only
    rw [if_pos (by omega)]
  next hne => exact absurd rfl (hne _ _ _ _ _)

variable {c : Char}

/-- Up to the tilde the two ways of writing agree. -/
theorem escapeChar_eq_writtenChar (h : c.toNat ≤ 126) : escapeChar c = writtenChar c := by
  unfold escapeChar writtenChar
  by_cases hctl : c.toNat < 32
  · have hprint : ¬ (32 ≤ c.toNat ∧ c.toNat ≤ 126) := by omega
    have hplane : c.toNat < 65536 := by omega
    rw [if_neg hprint, if_pos hplane, if_pos hctl]
  · have hprint : 32 ≤ c.toNat ∧ c.toNat ≤ 126 := by omega
    rw [if_pos hprint, if_neg hctl]

theorem escapeChar_of_lt (h : 126 < c.toNat) :
    escapeChar c = if c.toNat < 65536 then escapeCode c.toNat
      else escapeCode (55296 + (c.toNat - 65536) / 1024)
        ++ escapeCode (56320 + (c.toNat - 65536) % 1024) := by
  have hne : ∀ d : Char, d.toNat ≤ 126 → c ≠ d := by
    rintro d hd rfl
    omega
  unfold escapeChar
  rw [if_neg (hne _ (by decide)), if_neg (hne _ (by decide)), if_neg (hne _ (by decide)),
    if_neg (hne _ (by decide)), if_neg (hne _ (by decide)), if_neg (by omega), if_neg (by omega),
    if_neg (by omega)]

theorem readString_escapeChar (c : Char) (rest : List Char) :
    readString (escapeChar c ++ rest) = (readString rest).map fun p => (c :: p.1, p.2) := by
  by_cases hascii : c.toNat ≤ 126
  · rw [escapeChar_eq_writtenChar hascii, readString_writtenChar]
  · have hval : c.toNat < 55296 ∨ 57343 < c.toNat ∧ c.toNat < 1114112 := c.valid
    rw [escapeChar_of_lt (by omega)]
    split
    next hplane =>
      rw [readString_escapeCode hplane (by omega), Char.ofNat_toNat]
    next hplane =>
      have hcode : 65536 + (55296 + (c.toNat - 65536) / 1024 - 55296) * 1024
          + (56320 + (c.toNat - 65536) % 1024 - 56320) = c.toNat := by omega
      rw [readString_escapePair (by omega) (by omega), hcode, Char.ofNat_toNat]

/-- **A quoted text comes back.** -/
theorem readString_quoted (text rest : List Char) :
    readString (text.flatMap escapeChar ++ '"' :: rest) = some (text, rest) := by
  induction text with
  | nil => rfl
  | cons c text ih =>
    rw [flatMap_cons, append_assoc, readString_escapeChar, ih]
    rfl

variable {r s : List Char}

theorem quote_append_inj {a b : String} (h : quote a ++ r = quote b ++ s) : a = b ∧ r = s := by
  have hread : ∀ (t : String) (x : List Char), readString ((quote t ++ x).tail)
      = some (t.toList, x) := by
    intro t x
    unfold quote
    rw [cons_append, cons_append, tail_cons, append_assoc]
    exact readString_quoted _ _
  have heq := hread a r
  rw [h, hread b s] at heq
  obtain ⟨htext, hrest⟩ := Prod.mk.inj (Option.some.inj heq)
  exact ⟨(String.toList_inj.mp htext).symm, hrest.symm⟩

/-! ## Normal forms -/

mutual

/-- **The value with the fields of all its objects in order.** -/
def normal : Json → Json
  | .arr items => .arr (normalItems items)
  | .obj fields => .obj (sortFields (normalFields fields))
  | json => json

def normalItems : List Json → List Json
  | [] => []
  | item :: rest => normal item :: normalItems rest

def normalFields : List (String × Json) → List (String × Json)
  | [] => []
  | (key, value) :: rest => (key, normal value) :: normalFields rest

end

mutual

/-- **The text of a value with the fields as they stand.** -/
def plain : Json → List Char
  | .null => ['n', 'u', 'l', 'l']
  | .bool true => ['t', 'r', 'u', 'e']
  | .bool false => ['f', 'a', 'l', 's', 'e']
  | .int value => (toString value).toList
  | .float value => value.text .python
  | .str text => quote text
  | .arr items => '[' :: commas (plainItems items) ++ [']']
  | .obj fields => '{' :: commas (plainFields fields) ++ ['}']

def plainItems : List Json → List (List Char)
  | [] => []
  | item :: rest => plain item :: plainItems rest

def plainFields : List (String × Json) → List (List Char)
  | [] => []
  | (key, value) :: rest => (quote key ++ ':' :: plain value) :: plainFields rest

end

theorem normalItems_eq_map (items : List Json) : normalItems items = items.map normal := by
  induction items with
  | nil => rfl
  | cons item items ih => rw [normalItems, ih, map_cons]

theorem normalFields_eq_map (fs : List (String × Json)) :
    normalFields fs = fs.map fun field => (field.1, normal field.2) := by
  induction fs with
  | nil => rfl
  | cons field fs ih => rw [normalFields, ih, map_cons]

theorem plainFields_eq_map (fs : List (String × Json)) :
    plainFields fs = fs.map fun field => quote field.1 ++ ':' :: plain field.2 := by
  induction fs with
  | nil => rfl
  | cons field fs ih => rw [plainFields, ih, map_cons]

variable {α : Type}

/-- Sorting looks at the keys alone. -/
theorem sortFields_map {β : Type} (f : α → β) (fs : List (String × α)) :
    sortFields (fs.map fun field => (field.1, f field.2))
      = (sortFields fs).map fun field => (field.1, f field.2) := by
  exact (map_insertionSort (fun a b => a.1 ≤ b.1) (fun a b => a.1 ≤ b.1)
    (fun field => (field.1, f field.2)) fs fun _ _ _ _ => Iff.rfl).symm

mutual

/-- The canonical text is the plain one of the normal form. -/
theorem canonical_eq_plain : ∀ json : Json, canonical json = plain (normal json)
  | .null | .bool true | .bool false | .int _ | .float _ | .str _ => rfl
  | .arr items => by rw [canonical, canonicalItems_eq_plainItems items, normal, plain]
  | .obj fields => by
    rw [canonical, canonicalFields_eq_plain fields, sortFields_map plain, normal, plain,
      plainFields_eq_map, List.map_map]
    rfl

theorem canonicalItems_eq_plainItems : ∀ items : List Json,
    canonicalItems items = plainItems (normalItems items)
  | [] => rfl
  | item :: rest => by
    rw [canonicalItems, canonical_eq_plain item, canonicalItems_eq_plainItems rest, normalItems,
      plainItems]

theorem canonicalFields_eq_plain : ∀ fields : List (String × Json),
    canonicalFields fields = (normalFields fields).map fun field => (field.1, plain field.2)
  | [] => rfl
  | (key, value) :: rest => by
    rw [canonicalFields, canonical_eq_plain value, canonicalFields_eq_plain rest, normalFields,
      List.map_cons]

end

/-! ## Unique decoding -/

mutual

/-- **A value as it is read**: the keys of each object are distinct, and floats are kept by
their shortest digits. -/
def Proper : Json → Prop
  | .float value => value.Shortest
  | .arr items => ProperItems items
  | .obj fields => (fields.map Prod.fst).Nodup ∧ ProperFields fields
  | _ => True

def ProperItems : List Json → Prop
  | [] => True
  | item :: rest => Proper item ∧ ProperItems rest

def ProperFields : List (String × Json) → Prop
  | [] => True
  | (_, value) :: rest => Proper value ∧ ProperFields rest

end

theorem properItems_iff {items : List Json} : ProperItems items ↔ ∀ item ∈ items, Proper item := by
  induction items with
  | nil => exact ⟨nofun, fun _ => trivial⟩
  | cons item items ih => rw [ProperItems, ih, forall_mem_cons]

variable {fields : List (String × Json)} {a : Json} {name : String}

theorem properFields_iff : ProperFields fields ↔ ∀ field ∈ fields, Proper field.2 := by
  induction fields with
  | nil => exact ⟨nofun, fun _ => trivial⟩
  | cons field fields ih => rw [ProperFields, ih, forall_mem_cons]

theorem proper_obj :
    Proper (.obj fields) ↔ (fields.map Prod.fst).Nodup ∧ ∀ field ∈ fields, Proper field.2 := by
  rw [Proper, properFields_iff]

/-- What the first character of a value says about it. -/
inductive Kind
  | absent | yes | no | number | text | list | map | other

def kindOf (c : Char) : Kind :=
  if isNumberChar c then .number
  else if c = 'n' then .absent
  else if c = 't' then .yes
  else if c = 'f' then .no
  else if c = '"' then .text
  else if c = '[' then .list
  else if c = '{' then .map
  else .other

def kind : Json → Kind
  | .null => .absent
  | .bool true => .yes
  | .bool false => .no
  | .int _ | .float _ => .number
  | .str _ => .text
  | .arr _ => .list
  | .obj _ => .map

theorem kind_ne_other (json : Json) : Kind.other ≠ kind json := by
  cases json with
  | bool v => cases v <;> exact nofun
  | _ => exact nofun

theorem head_number {tok : List Char} (hne : tok ≠ []) (h : ∀ c ∈ tok, isNumberChar c = true) :
    ∃ c rest, tok = c :: rest ∧ kindOf c = .number := by
  cases tok with
  | nil => exact (hne rfl).elim
  | cons c rest => exact ⟨c, rest, rfl, if_pos (h c mem_cons_self)⟩

/-- **A value is known by its first character**, up to its kind. -/
theorem plain_head (json : Json) : ∃ c rest, plain json = c :: rest ∧ kindOf c = kind json := by
  cases json with
  | null => exact ⟨'n', _, rfl, rfl⟩
  | bool v =>
    cases v with
    | true => exact ⟨'t', _, rfl, rfl⟩
    | false => exact ⟨'f', _, rfl, rfl⟩
  | int v =>
    rw [plain]
    exact head_number (toString_ne_nil v) (number_toString v)
  | float v =>
    rw [plain]
    exact head_number (number_text .python v).2.2 (number_text .python v).1
  | str text => exact ⟨'"', _, rfl, rfl⟩
  | arr items => exact ⟨'[', _, rfl, rfl⟩
  | obj fs => exact ⟨'{', _, rfl, rfl⟩

theorem kind_eq_of_append {b : Json} (h : plain a ++ r = plain b ++ s) : kind a = kind b := by
  obtain ⟨c, x, ha, hc⟩ := plain_head a
  obtain ⟨d, y, hb, hd⟩ := plain_head b
  rw [ha, hb, cons_append, cons_append] at h
  rw [← hc, ← hd, (cons.inj h).1]

theorem plain_append_ne (hc : kindOf c = .other) : plain a ++ r ≠ c :: s := by
  obtain ⟨d, x, ha, hd⟩ := plain_head a
  rw [ha, cons_append]
  intro h
  rw [(cons.inj h).1, hc] at hd
  exact kind_ne_other a hd

/-- Numbers end where their characters do. -/
theorem number_append_inj {a b : List Char} (ha : ∀ c ∈ a, isNumberChar c = true)
    (hb : ∀ c ∈ b, isNumberChar c = true) (hr : Ends r) (hs : Ends s) (h : a ++ r = b ++ s) :
    a = b ∧ r = s := by
  have hleft := span_number ha hr
  have hright := span_number hb hs
  rw [h] at hleft
  exact ⟨hleft.1.symm.trans hright.1, hleft.2.symm.trans hright.2⟩

/-- What follows the first of several parts. -/
def commasTail (parts : List (List Char)) (rest : List Char) : List Char :=
  match parts with
  | [] => rest
  | _ => ',' :: (commas parts ++ rest)

theorem commas_cons_append (part : List Char) (parts : List (List Char)) (rest : List Char) :
    commas (part :: parts) ++ rest = part ++ commasTail parts rest := by
  cases parts with
  | nil => rfl
  | cons next parts =>
    rw [commas_cons_cons, append_assoc]
    rfl

theorem ends_commasTail {parts : List (List Char)} {rest : List Char} (hc : isNumberChar c = false)
    : Ends (commasTail parts (c :: rest)) := by
  cases parts with
  | nil => exact ends_cons hc rest
  | cons part parts => exact ends_cons rfl _

mutual

/-- **Plain texts are decoded in one way only.** -/
theorem plain_append_inj : ∀ {a b : Json} {r s : List Char}, Proper a → Proper b →
    Ends r → Ends s → plain a ++ r = plain b ++ s → a = b ∧ r = s
  | .null, b, r, s, _, _, _, _, h => by
    have hkind := kind_eq_of_append h
    cases b with
    | null => exact ⟨rfl, append_cancel_left h⟩
    | bool v => cases v <;> cases hkind
    | _ => cases hkind
  | .bool v, b, r, s, _, _, _, _, h => by
    have hkind := kind_eq_of_append h
    cases b with
    | bool v' =>
      cases v <;> cases v' <;> first
        | exact ⟨rfl, append_cancel_left h⟩
        | cases hkind
    | _ => cases v <;> cases hkind
  | .int v, b, r, s, _, _, hr, hs, h => by
    have hkind := kind_eq_of_append h
    cases b with
    | int v' =>
      obtain ⟨htext, hrest⟩ :=
        number_append_inj (number_toString v) (number_toString v') hr hs h
      have hrd := intLiteral_toString v
      rw [htext, intLiteral_toString] at hrd
      cases hrd
      exact ⟨rfl, hrest⟩
    | float v' =>
      obtain ⟨htext, -⟩ :=
        number_append_inj (number_toString v) (number_text .python v').1 hr hs h
      have hrd := intLiteral_toString v
      rw [htext, (number_text .python v').2.1] at hrd
      cases hrd
    | bool v' => cases v' <;> cases hkind
    | _ => cases hkind
  | .float v, b, r, s, ha, hb, hr, hs, h => by
    have hkind := kind_eq_of_append h
    cases b with
    | int v' =>
      obtain ⟨htext, -⟩ :=
        number_append_inj (number_text .python v).1 (number_toString v') hr hs h
      have hrd := intLiteral_toString v'
      rw [← htext, (number_text .python v).2.1] at hrd
      cases hrd
    | float v' =>
      obtain ⟨htext, hrest⟩ := number_append_inj (number_text .python v).1
        (number_text .python v').1 hr hs h
      rw [Proper] at ha hb
      exact ⟨congrArg _ (Decimal.text_inj ha hb htext), hrest⟩
    | bool v' => cases v' <;> cases hkind
    | _ => cases hkind
  | .str text, b, r, s, _, _, _, _, h => by
    have hkind := kind_eq_of_append h
    cases b with
    | str text' =>
      obtain ⟨htext, hrest⟩ := quote_append_inj h
      exact ⟨congrArg _ htext, hrest⟩
    | bool v' => cases v' <;> cases hkind
    | _ => cases hkind
  | .arr items, b, r, s, ha, hb, _, _, h => by
    have hkind := kind_eq_of_append h
    cases b with
    | arr items' =>
      rw [Proper] at ha hb
      rw [plain, plain] at h
      simp only [cons_append, append_assoc, nil_append, cons.injEq, true_and] at h
      obtain ⟨hitems, hrest⟩ := plainItems_append_inj ha hb h
      exact ⟨congrArg _ hitems, hrest⟩
    | bool v' => cases v' <;> cases hkind
    | _ => cases hkind
  | .obj fs, b, r, s, ha, hb, _, _, h => by
    have hkind := kind_eq_of_append h
    cases b with
    | obj fs' =>
      rw [Proper] at ha hb
      rw [plain, plain] at h
      simp only [cons_append, append_assoc, nil_append, cons.injEq, true_and] at h
      obtain ⟨hflds, hrest⟩ := plainFields_append_inj ha.2 hb.2 h
      exact ⟨congrArg _ hflds, hrest⟩
    | bool v' => cases v' <;> cases hkind
    | _ => cases hkind

theorem plainItems_append_inj : ∀ {xs ys : List Json} {r s : List Char}, ProperItems xs →
    ProperItems ys → commas (plainItems xs) ++ ']' :: r = commas (plainItems ys) ++ ']' :: s →
    xs = ys ∧ r = s
  | [], [], r, s, _, _, h => ⟨rfl, (List.cons.inj h).2⟩
  | [], y :: ys, r, s, _, _, h => by
    rw [plainItems, plainItems, commas_cons_append] at h
    exact (plain_append_ne rfl h.symm).elim
  | x :: xs, [], r, s, _, _, h => by
    rw [plainItems, plainItems, commas_cons_append] at h
    exact (plain_append_ne rfl h).elim
  | x :: xs, y :: ys, r, s, hxs, hys, h => by
    rw [ProperItems] at hxs hys
    rw [plainItems, plainItems, commas_cons_append, commas_cons_append] at h
    obtain ⟨rfl, htail⟩ := plain_append_inj hxs.1 hys.1 (ends_commasTail rfl)
      (ends_commasTail rfl) h
    cases xs with
    | nil =>
      cases ys with
      | nil => exact ⟨rfl, (cons.inj htail).2⟩
      | cons y ys =>
        obtain ⟨hc, -⟩ := cons.inj htail
        exact absurd hc (by decide)
    | cons x' xs =>
      cases ys with
      | nil =>
        obtain ⟨hc, -⟩ := cons.inj htail
        exact absurd hc (by decide)
      | cons y' ys =>
        obtain ⟨hr, hend⟩ := plainItems_append_inj hxs.2 hys.2 (cons.inj htail).2
        exact ⟨congrArg _ hr, hend⟩

theorem plainFields_append_inj : ∀ {xs ys : List (String × Json)} {r s : List Char},
    ProperFields xs → ProperFields ys →
    commas (plainFields xs) ++ '}' :: r = commas (plainFields ys) ++ '}' :: s → xs = ys ∧ r = s
  | [], [], r, s, _, _, h => ⟨rfl, (List.cons.inj h).2⟩
  | [], (key, y) :: ys, r, s, _, _, h => by
    rw [plainFields, plainFields, commas_cons_append] at h
    exact absurd (List.cons.inj h).1 (by decide)
  | (key, x) :: xs, [], r, s, _, _, h => by
    rw [plainFields, plainFields, commas_cons_append] at h
    exact absurd (List.cons.inj h).1 (by decide)
  | (key, x) :: xs, (key', y) :: ys, r, s, hxs, hys, h => by
    rw [ProperFields] at hxs hys
    rw [plainFields, plainFields, commas_cons_append, commas_cons_append, List.append_assoc,
      List.append_assoc] at h
    obtain ⟨rfl, hval⟩ := quote_append_inj h
    obtain ⟨rfl, htail⟩ := plain_append_inj hxs.1 hys.1 (ends_commasTail rfl)
      (ends_commasTail rfl) (cons.inj hval).2
    cases xs with
    | nil =>
      cases ys with
      | nil => exact ⟨rfl, (cons.inj htail).2⟩
      | cons y ys =>
        obtain ⟨hc, -⟩ := cons.inj htail
        exact absurd hc (by decide)
    | cons x' xs =>
      cases ys with
      | nil =>
        obtain ⟨hc, -⟩ := cons.inj htail
        exact absurd hc (by decide)
      | cons y' ys =>
        obtain ⟨hr, hend⟩ := plainFields_append_inj hxs.2 hys.2 (cons.inj htail).2
        exact ⟨congrArg _ hr, hend⟩

end

/-! ## Normal forms -/

theorem perm_sortFields (fields : List (String × α)) : (sortFields fields).Perm fields :=
  perm_insertionSort _ _

theorem mem_normalFields {value : Json} : (name, value) ∈ sortFields (normalFields fields)
      ↔ ∃ json, (name, json) ∈ fields ∧ normal json = value := by
  rw [(perm_sortFields _).mem_iff, normalFields_eq_map, mem_map]
  constructor
  · rintro ⟨⟨name, json⟩, hmem, heq⟩
    cases heq
    exact ⟨json, hmem, rfl⟩
  · rintro ⟨json, hmem, rfl⟩
    exact ⟨(name, json), hmem, rfl⟩

theorem nodup_normalFields (h : (fields.map Prod.fst).Nodup) :
    ((sortFields (normalFields fields)).map Prod.fst).Nodup := by
  have hperm : ((sortFields (normalFields fields)).map Prod.fst).Perm (fields.map Prod.fst) := by
    have hk : (normalFields fields).map Prod.fst = fields.map Prod.fst := by
      rw [normalFields_eq_map, map_map]
      rfl
    rw [← hk]
    exact (perm_sortFields _).map _
  exact hperm.nodup_iff.mpr h

mutual

theorem Proper.normal : ∀ {json : Json}, json.Proper → json.normal.Proper
  | .null, _ | .bool _, _ | .int _, _ | .str _, _ => trivial
  | .float _, h => h
  | .arr items, h => by
    rw [Proper] at h
    rw [Json.normal, Proper]
    exact ProperItems.normal h
  | .obj fs, h => by
    rw [Proper] at h
    rw [Json.normal, proper_obj]
    have hflds := properFields_iff.mp (ProperFields.normal h.2)
    exact ⟨nodup_normalFields h.1, fun field hmem =>
      hflds field ((perm_sortFields _).mem_iff.mp hmem)⟩

theorem ProperItems.normal : ∀ {items : List Json}, ProperItems items →
    ProperItems (normalItems items)
  | [], _ => trivial
  | _ :: _, h => ⟨Proper.normal h.1, ProperItems.normal h.2⟩

theorem ProperFields.normal : ∀ {fs : List (String × Json)}, ProperFields fs →
    ProperFields (normalFields fs)
  | [], _ => trivial
  | (_, _) :: _, h => ⟨Proper.normal h.1, ProperFields.normal h.2⟩

end

/-- **Values with one canonical text are equal up to the order of keys.** -/
theorem canonical_eq_iff {b : Json} (ha : a.Proper) (hb : b.Proper) :
    canonical a = canonical b ↔ normal a = normal b := by
  rw [canonical_eq_plain, canonical_eq_plain]
  constructor
  · intro h
    have hends : Ends [] := fun _ hc => by cases hc
    have happ : plain (normal a) ++ [] = plain (normal b) ++ [] := by rw [h]
    exact (plain_append_inj ha.normal hb.normal hends hends happ).1
  · intro h
    rw [h]

/-! What two objects have under their keys, when their normal forms are equal. -/

variable {xs ys : List (String × Json)} {key : α → String}

section

variable (h : normal (.obj xs) = normal (.obj ys))

include h

theorem exists_mem_of_normal_eq {x : Json} (hx : (name, x) ∈ xs) :
    ∃ y, (name, y) ∈ ys ∧ normal y = normal x := by
  rw [normal, normal, Json.obj.injEq] at h
  rw [← mem_normalFields, ← h]
  exact mem_normalFields.mpr ⟨x, hx, rfl⟩

theorem exists_mem_iff_of_normal_eq (name : String) :
    (∃ x, (name, x) ∈ xs) ↔ ∃ y, (name, y) ∈ ys := by
  constructor
  · rintro ⟨x, hx⟩
    obtain ⟨y, hy, -⟩ := exists_mem_of_normal_eq h hx
    exact ⟨y, hy⟩
  · rintro ⟨y, hy⟩
    obtain ⟨x, hx, -⟩ := exists_mem_of_normal_eq h.symm hy
    exact ⟨x, hx⟩

theorem normal_eq_of_mem (hys : (ys.map Prod.fst).Nodup)
    (name : String) {x y : Json} (hx : (name, x) ∈ xs) (hy : (name, y) ∈ ys) :
    normal x = normal y := by
  obtain ⟨z, hz, heq⟩ := exists_mem_of_normal_eq h hx
  have hfield := inj_on_of_nodup_map hys hz hy rfl
  rw [← heq, (Prod.mk.inj hfield).2]

theorem str_eq_of_mem (hys : (ys.map Prod.fst).Nodup)
    (name : String) {x y : String} (hx : (name, .str x) ∈ xs) (hy : (name, .str y) ∈ ys) : x = y :=
  Json.str.inj (normal_eq_of_mem h hys name hx hy)

end

/-- Lists in the order of a key that tells their members apart are equal if they are
permutations. -/
theorem eq_of_perm_of_sorted {xs ys : List α} (hk : (xs.map key).Nodup)
    (hxs : xs.Pairwise fun a b => key a ≤ key b) (hys : ys.Pairwise fun a b => key a ≤ key b)
    (h : xs.Perm ys) : xs = ys := by
  refine List.Perm.eq_of_pairwise (fun a b ha hb hab hba => ?_) hxs hys h
  exact inj_on_of_nodup_map hk ha (h.mem_iff.mpr hb) (le_antisymm hab hba)

theorem sorted_insertionSort (key : α → String) (xs : List α) :
    (xs.insertionSort fun a b => key a ≤ key b).Pairwise fun a b => key a ≤ key b := by
  have htot : Std.Total fun a b : α => key a ≤ key b := ⟨fun a b => le_total (key a) (key b)⟩
  have htrans : IsTrans α fun a b => key a ≤ key b := ⟨fun _ _ _ => le_trans⟩
  exact pairwise_insertionSort _ xs

/-- **Sorting forgets the order**, if the keys are distinct. -/
theorem insertionSort_eq_of_perm {xs ys : List α} (hk : (xs.map key).Nodup) (h : xs.Perm ys) :
    (xs.insertionSort fun a b => key a ≤ key b) = ys.insertionSort fun a b => key a ≤ key b := by
  have hsort := perm_insertionSort (fun a b => key a ≤ key b) xs
  refine eq_of_perm_of_sorted ((hsort.map key).nodup_iff.mpr hk)
    (sorted_insertionSort key xs) (sorted_insertionSort key ys) ?_
  exact hsort.trans (h.trans (perm_insertionSort _ ys).symm)

/-- Objects with the same under each key have one normal form. -/
theorem normal_obj_eq (hxs : (xs.map Prod.fst).Nodup) (hys : (ys.map Prod.fst).Nodup)
    (hleft : ∀ name x, (name, x) ∈ xs → ∃ y, (name, y) ∈ ys ∧ normal y = normal x)
    (hright : ∀ name y, (name, y) ∈ ys → ∃ x, (name, x) ∈ xs ∧ normal x = normal y) :
    normal (.obj xs) = normal (.obj ys) := by
  rw [normal, normal]
  refine congrArg _ (eq_of_perm_of_sorted (nodup_normalFields hxs)
    (sorted_insertionSort Prod.fst _) (sorted_insertionSort Prod.fst _) ?_)
  rw [perm_ext_iff_of_nodup (nodup_normalFields hxs).of_map (nodup_normalFields hys).of_map]
  rintro ⟨name, v⟩
  rw [mem_normalFields, mem_normalFields]
  constructor
  · rintro ⟨x, hx, rfl⟩
    exact hleft name x hx
  · rintro ⟨y, hy, rfl⟩
    exact hright name y hy

end Json
