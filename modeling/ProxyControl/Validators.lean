import ProxyControl.JsonText

/-!
# Validators

A program that takes JSON from elsewhere reads it into its own types with *validators*:
small functions that take a value or refuse it, one for each kind of field, and objects
that are read field by field. They are lax – a number may come as a text, a Boolean as a
word, a field may be missing and have a default – and so what is written later is often
not what came.

It is accepted all the same. A validator is *stable* with a way of writing (`Stable`) when
what it accepted it accepts again as it is written, and when writing nests no deeper than
what came. Each kind of field is stable with the obvious way of writing it, and the lemmas
compose, so that the stability of an object is read off its fields.
-/

namespace Json

open List
open Table

/-! ## Fields -/

/-- How a text and a float are read as integers. -/
structure Numerals where
  intFromStr : String → Option Int
  floatInt : Decimal → Option Int

def string : Json → Option String
  | .str text => some text
  | _ => none

/-- A text with a property. -/
def strWith (matcher : String → Bool) (json : Json) : Option String :=
  json.string.filter matcher

/-- A text of bounded length. -/
def strLen (least most : Nat) : Json → Option String :=
  strWith fun text => least ≤ text.length && text.length ≤ most

/-- Integers of 64 bits. -/
def isInt64 (value : Int) : Bool := -(2 ^ 63) ≤ value && value < 2 ^ 63

/-- An integer as it may come: also as a Boolean, a whole float or a text. -/
def laxInt (numerals : Numerals) : Json → Option Int
  | .bool flag => some (if flag then 1 else 0)
  | .int value => some value
  | .float value => numerals.floatInt value
  | .str text => numerals.intFromStr text
  | _ => none

/-- An integer with a property. -/
def intWith (numerals : Numerals) (bounds : Int → Bool) (json : Json) : Option Int :=
  (json.laxInt numerals).filter fun value => bounds value && isInt64 value

def falseWords : List String := ["0", "f", "n", "no", "off", "false"]

def trueWords : List String := ["1", "t", "y", "on", "yes", "true"]

def isWord (text : String) (words : List String) : Bool :=
  words.any fun word => text.toList.map Char.toLower == word.toList

/-- A Boolean as it may come: also as a number or a word. -/
def boolean (numerals : Numerals) : Json → Option Bool
  | .bool flag => some flag
  | .int 0 => some false
  | .int 1 => some true
  | .float value =>
    if numerals.floatInt value = some 0 then some false
    else if numerals.floatInt value = some 1 then some true
    else none
  | .str text =>
    if isWord text falseWords then some false
    else if isWord text trueWords then some true
    else none
  | _ => none

/-- One of a few texts. -/
def literal {α : Type} (choices : List (String × α)) (json : Json) : Option α :=
  json.string.bind (find choices)

/-- A fixed number. A Boolean and a float that equal it are as good. -/
def literalInt (numerals : Numerals) (expected : Int) (json : Json) : Option Unit :=
  match json with
  | .str _ => none
  | json => if json.laxInt numerals = some expected then some () else none

def dict : Json → Option (List (String × Json))
  | .obj fields => some fields
  | _ => none

def nullable {α : Type} (validate : Json → Option α) : Json → Option (Option α)
  | .null => some none
  | json => (validate json).map some

def list {α : Type} (most : Nat) (validate : Json → Option α) : Json → Option (List α)
  | .arr items => if items.length ≤ most then items.mapM validate else none
  | _ => none

/-- An object as a table. -/
def dictOf {κ α : Type} (key : String → Option κ) (validate : Json → Option α) :
    Json → Option (List (κ × α))
  | .obj fields => fields.mapM fun field => do
      let key ← key field.1
      let value ← validate field.2
      return (key, value)
  | _ => none

/-! ## Objects -/

abbrev Fields := List (String × Json)

def required {α : Type} (fields : Fields) (name : String) (validate : Json → Option α) :
    Option α :=
  (find fields name).bind validate

/-- A field with a default, which is not validated. -/
def optional {α : Type} (fields : Fields) (name : String) (default : α)
    (validate : Json → Option α) : Option α :=
  match find fields name with
  | none => some default
  | some json => validate json

def object {α : Type} (validate : Fields → Option α) : Json → Option α
  | .obj fields => validate fields
  | _ => none

/-- Nothing but what is declared. -/
def closed (fields : Fields) (declared : List String) : Bool :=
  fields.all fun field => declared.contains field.1

/-! ## Stability -/

variable {fl : Floats} {numerals : Numerals} {α : Type} {least : Nat}
  {validate : Json → Option α} {fs : Fields} {dump : α → Json} {json : Json} {depth : Nat}
  {β : Type}

/-- What was accepted is accepted again as it is written. -/
def Again (validate : Json → Option α) (dump : α → Json) : Prop :=
  ∀ ⦃json : Json⦄ ⦃value : α⦄, validate json = some value → validate (dump value) = some value

/-- **What was accepted is accepted again as it is written**, and writing nests no deeper,
from some depth on that defaults may need. -/
structure Stable (floats : Floats) (least : Nat) (validate : Json → Option α) (dump : α → Json) :
    Prop where
  again : Again validate dump
  fits : ∀ {json : Json} {value : α} {depth : Nat}, validate json = some value →
    least ≤ depth → Fits floats json depth → Fits floats (dump value) depth

theorem fits_str (text : String) (depth : Nat) : Fits fl (.str text) depth := by
  rw [Fits]
  trivial

theorem fits_null (depth : Nat) : Fits fl .null depth := by
  rw [Fits]
  trivial

theorem fits_bool (flag : Bool) (depth : Nat) : Fits fl (.bool flag) depth := by
  rw [Fits]
  trivial

/-- An object fits if its fields do. -/
theorem fits_obj (hk : (fs.map Prod.fst).Nodup)
    (h : ∀ field ∈ fs, Fits fl field.2 depth) : Fits fl (.obj fs) (depth + 1) := by
  rw [Fits, fitsFields_iff]
  exact ⟨Nat.succ_pos depth, hk, h⟩

theorem of_fits_obj (h : Fits fl (.obj fs) depth) :
    ∃ inner, depth = inner + 1 ∧ ∀ field ∈ fs, Fits fl field.2 inner := by
  rw [Fits, fitsFields_iff] at h
  exact ⟨depth - 1, by omega, h.2.2⟩

/-- A validator of objects: what has to be shown, of the fields. -/
theorem stable_object {validate : Fields → Option α}
    (h : ∀ fs value, validate fs = some value → object validate (dump value) = some value
      ∧ ∀ inner, least ≤ inner + 1 → (∀ field ∈ fs, Fits fl field.2 inner) →
        Fits fl (dump value) (inner + 1)) : Stable fl least (object validate) dump where
  again {json value} hval := by
    cases json with
    | obj fs => exact (h fs value hval).1
    | _ => cases hval
  fits {json value depth} hval hlst hdepth := by
    cases json with
    | obj fs =>
      obtain ⟨inner, rfl, hinn⟩ := of_fits_obj hdepth
      exact (h fs value hval).2 inner hlst hinn
    | _ => cases hval

theorem bind_eq_some {x : Option α} {next : α → Option β} {value : β} :
    x >>= next = some value ↔ ∃ a, x = some a ∧ next a = some value :=
  Option.bind_eq_some_iff

theorem strWith_eq_some {matcher : String → Bool} {text : String} :
    strWith matcher json = some text ↔ json = .str text ∧ matcher text = true := by
  cases json <;> simp [strWith, string, Option.filter_eq_some_iff]

theorem again_strWith (matcher : String → Bool) : Again (strWith matcher) .str :=
  fun _ _ h => strWith_eq_some.mpr ⟨rfl, (strWith_eq_some.mp h).2⟩

theorem inRange_of_isInt64 {v : Int} (h : isInt64 v = true) : inRange v = true := by
  unfold isInt64 at h
  unfold inRange
  rw [Bool.and_eq_true, decide_eq_true_iff, decide_eq_true_iff] at h ⊢
  omega

theorem again_intWith (bounds : Int → Bool) : Again (intWith numerals bounds) .int :=
  fun _ _ h => Option.filter_eq_some_iff.mpr ⟨rfl, (Option.filter_eq_some_iff.mp h).2⟩

theorem stable_intWith (bounds : Int → Bool) : Stable fl 0 (intWith numerals bounds) .int where
  again := again_intWith bounds
  fits h _ _ := by
    rw [Fits]
    exact inRange_of_isInt64 (Bool.and_eq_true_iff.mp (Option.filter_eq_some_iff.mp h).2).2

theorem again_boolean : Again (boolean numerals) .bool := fun _ _ _ => rfl

theorem again_literal {choices : List (String × α)} {name : α → String}
    (h : ∀ value, find choices (name value) = some value) :
    Again (literal choices) fun value => .str (name value) :=
  fun _ value _ => h value

theorem stable_dict : Stable fl 0 dict .obj where
  again _ _ _ := rfl
  fits {json} := by
    intro value depth h _ hfits
    cases json with
    | obj fs =>
      cases h
      exact hfits
    | _ => cases h

theorem of_nullable {value : α} (h : nullable validate json = some (some value)) :
    validate json = some value := by
  unfold nullable at h
  split at h
  · cases h
  · simpa using h

theorem Again.nullable (h : Again validate dump) (hnull : ∀ value, dump value ≠ .null) :
    Again (nullable validate) fun value => value.elim .null dump := by
  intro json value hval
  cases value with
  | none => rfl
  | some value =>
    show Json.nullable validate (dump value) = _
    unfold Json.nullable
    split
    next heq => exact absurd heq (hnull value)
    · rw [h (of_nullable hval)]
      rfl

theorem stable_nullable (h : Stable fl least validate dump) (hnull : ∀ value, dump value ≠ .null) :
    Stable fl least (nullable validate) fun value => value.elim .null dump where
  again := Again.nullable h.again hnull
  fits {json value depth} hval hlst hfits := by
    cases value with
    | none =>
      show Fits fl .null depth
      rw [Fits]
      trivial
    | some value =>
      have hvalue := of_nullable hval
      exact h.fits hvalue hlst hfits

/-- What a traversal gives comes from the items, one for each. -/
theorem mapM_eq_some {f : α → Option β} {items : List α} {values : List β}
    (h : items.mapM f = some values) :
    values.length = items.length ∧ ∀ value ∈ values, ∃ item ∈ items, f item = some value := by
  induction items generalizing values with
  | nil =>
    cases h
    exact ⟨rfl, nofun⟩
  | cons item items ih =>
    rw [mapM_cons, Option.bind_eq_bind, Option.bind_eq_some_iff] at h
    obtain ⟨value, hval, hr⟩ := h
    rw [Option.bind_eq_bind, Option.bind_eq_some_iff] at hr
    obtain ⟨rest, hr, heq⟩ := hr
    cases heq
    obtain ⟨hlen, hall⟩ := ih hr
    refine ⟨congrArg (· + 1) hlen, forall_mem_cons.mpr ⟨⟨item, mem_cons_self, hval⟩,
      fun o hmem => ?_⟩⟩
    obtain ⟨src, hsrc, hoth⟩ := hall o hmem
    exact ⟨src, mem_cons_of_mem item hsrc, hoth⟩

theorem mapM_map {γ : Type} {f : β → Option γ} {g : γ → β} {values : List γ}
    (h : ∀ value ∈ values, f (g value) = some value) : (values.map g).mapM f = some values := by
  induction values with
  | nil => rfl
  | cons value values ih =>
    rw [map_cons, mapM_cons, h value mem_cons_self,
      ih fun o hmem => h o (mem_cons_of_mem value hmem)]
    rfl

theorem Again.list (most : Nat) (h : Again validate dump) :
    Again (list most validate) fun values => .arr (values.map dump) := by
  intro json values hval
  cases json with
  | arr items =>
    rw [Json.list, Option.ite_none_right_eq_some] at hval
    obtain ⟨hlen, hmap⟩ := hval
    obtain ⟨hsm, hall⟩ := mapM_eq_some hmap
    show (if (values.map dump).length ≤ most then _ else none) = _
    rw [length_map, hsm, if_pos hlen]
    refine mapM_map fun value hmem => ?_
    obtain ⟨item, -, hitem⟩ := hall value hmem
    exact h hitem
  | _ => cases hval

theorem stable_list (most : Nat) (h : Stable fl least validate dump) :
    Stable fl (least + 1) (list most validate) fun values => .arr (values.map dump) where
  again := Again.list most h.again
  fits {json values depth} hval hlst hfits := by
    cases json with
    | arr items =>
      rw [list, Option.ite_none_right_eq_some] at hval
      obtain ⟨-, hall⟩ := mapM_eq_some hval.2
      rw [Fits, fitsItems_iff] at hfits ⊢
      refine ⟨hfits.1, fun item hmem => ?_⟩
      obtain ⟨value, hvalue, rfl⟩ := mem_map.mp hmem
      obtain ⟨src, hsrc, hitem⟩ := hall value hvalue
      exact h.fits hitem (by omega) (hfits.2 src hsrc)
    | _ => cases hval

section

variable {κ : Type} {key : String → Option κ} {name : κ → String} {validate : Json → Option α}
  {dump : α → Json}

/-- The entries of a table stand under the keys of the object, and their values are of its
fields. -/
theorem dictOf_eq_some {es : List (κ × α)} (hkey : ∀ text k, key text = some k → text = name k)
    (h : dictOf key validate (.obj fs) = some es) :
    es.map (fun e => name e.1) = fs.map Prod.fst
      ∧ ∀ e ∈ es, ∃ field ∈ fs, validate field.2 = some e.2 := by
  rw [dictOf] at h
  induction fs generalizing es with
  | nil =>
    cases h
    exact ⟨rfl, nofun⟩
  | cons field fs ih =>
    simp only [mapM_cons, Option.bind_eq_bind, Option.bind_eq_some_iff] at h
    obtain ⟨e, ⟨k, hk, value, hval, hent⟩, rest, hr, heq⟩ := h
    cases hent
    cases heq
    obtain ⟨hkeys, hall⟩ := ih hr
    refine ⟨?_, forall_mem_cons.mpr ⟨⟨field, mem_cons_self, hval⟩, fun o hmem => ?_⟩⟩
    · rw [map_cons, map_cons, hkeys, hkey field.1 k hk]
    · obtain ⟨src, hsrc, hoth⟩ := hall o hmem
      exact ⟨src, mem_cons_of_mem field hsrc, hoth⟩

/-- A table whose keys are names. -/
theorem Again.dictOf (hkey : ∀ text k, key text = some k → text = name k)
    (hnm : ∀ k, key (name k) = some k) (h : Again validate dump) :
    Again (dictOf key validate) fun es =>
      .obj (es.map fun e => (name e.1, dump e.2)) := by
  intro json es hval
  cases json with
  | obj fs =>
    obtain ⟨-, hall⟩ := dictOf_eq_some hkey hval
    refine mapM_map fun e hmem => ?_
    obtain ⟨field, -, hvalue⟩ := hall e hmem
    rw [hnm, h hvalue]
    rfl
  | _ => cases hval

theorem stable_dictOf (hkey : ∀ text k, key text = some k → text = name k)
    (hnm : ∀ k, key (name k) = some k) (h : Stable fl least validate dump) :
    Stable fl (least + 1) (dictOf key validate) fun es =>
      .obj (es.map fun e => (name e.1, dump e.2)) where
  again := Again.dictOf hkey hnm h.again
  fits {json es depth} hval hlst hfits := by
    cases json with
    | obj fs =>
      obtain ⟨hk, hall⟩ := dictOf_eq_some hkey hval
      rw [Fits, fitsFields_iff] at hfits ⊢
      refine ⟨hfits.1, ?_, fun field hmem => ?_⟩
      · rw [map_map]
        show (es.map fun e => name e.1).Nodup
        rw [hk]
        exact hfits.2.1
      · obtain ⟨e, hent, rfl⟩ := mem_map.mp hmem
        obtain ⟨src, hsrc, hvalue⟩ := hall e hent
        exact h.fits hvalue (by omega) (hfits.2.2 src hsrc)
    | _ => cases hval

end

/-! ## Fields of an object -/

section

variable {fs : Fields} {name : String} {validate : Json → Option α} {dump : α → Json}
  {value default : α} {depth : Nat}

theorem required_of_mem (hk : (fs.map Prod.fst).Nodup) (hmem : (name, json) ∈ fs)
    (h : validate json = some value) : required fs name validate = some value := by
  rw [required, find_of_mem hk hmem]
  exact h

theorem optional_of_mem (hk : (fs.map Prod.fst).Nodup) (hmem : (name, json) ∈ fs)
    (h : validate json = some value) : optional fs name default validate = some value := by
  rw [optional, find_of_mem hk hmem]
  exact h

theorem closed_keys (fs : Fields) : closed fs (fs.map Prod.fst) = true := by
  rw [closed, all_eq_true]
  intro field hmem
  rw [contains_iff_mem]
  exact mem_map_of_mem hmem

theorem Again.required (h : Again validate dump)
    (hval : required fs name validate = some value) : validate (dump value) = some value := by
  obtain ⟨json, -, hvalid⟩ := Option.bind_eq_some_iff.mp hval
  exact h hvalid

theorem Stable.fits_required (h : Stable fl least validate dump)
    (hval : required fs name validate = some value) (hlst : least ≤ depth)
    (hfits : ∀ field ∈ fs, Fits fl field.2 depth) : Fits fl (dump value) depth := by
  obtain ⟨json, hf, hvalid⟩ := Option.bind_eq_some_iff.mp hval
  exact h.fits hvalid hlst (hfits (name, json) (mem_of_find hf))

theorem Again.optional (h : Again validate dump) (hdef : validate (dump default) = some default)
    (hval : optional fs name default validate = some value) :
    validate (dump value) = some value := by
  unfold Json.optional at hval
  split at hval
  · cases hval
    exact hdef
  · exact h hval

theorem Stable.fits_optional (h : Stable fl least validate dump)
    (hdef : Fits fl (dump default) depth)
    (hval : optional fs name default validate = some value) (hlst : least ≤ depth)
    (hfits : ∀ field ∈ fs, Fits fl field.2 depth) : Fits fl (dump value) depth := by
  unfold optional at hval
  split at hval
  · cases hval
    exact hdef
  next json hf => exact h.fits hval hlst (hfits (name, json) (mem_of_find hf))

end

end Json
