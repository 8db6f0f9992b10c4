import ProxyControl.JsonText

/-!
# Floats are known by their texts

A float is kept as its shortest digits, so that the first and the last digit are not zeros
unless the float is zero. From such digits the text in which Python writes it can be read
back: the zeros around the digits are the padding, and where the point stands among them is
the exponent. Two floats with one text are one (`Decimal.text_inj`).
-/

namespace Decimal

open List

/-! ## Padding -/

/-- A text that neither begins nor ends with a zero. -/
def Framed (text : List Char) : Prop :=
  text.head?.any (· != '0') = true ∧ text.getLast?.any (· != '0') = true

variable {x y : List Char} {a b : Nat}

theorem zeros_append_inj (hx : x.head?.any (· != '0') = true) (hy : y.head?.any (· != '0') = true)
    (h : List.replicate a '0' ++ x = List.replicate b '0' ++ y) : a = b ∧ x = y := by
  induction a generalizing b with
  | zero =>
    cases b with
    | zero => exact ⟨rfl, h⟩
    | succ b =>
      rw [show x = '0' :: (replicate b '0' ++ y) from h] at hx
      cases hx
  | succ a ih =>
    cases b with
    | zero =>
      rw [show y = '0' :: (replicate a '0' ++ x) from h.symm] at hy
      cases hy
    | succ b =>
      obtain ⟨hcnt, htext⟩ := ih (cons.inj h).2
      exact ⟨congrArg _ hcnt, htext⟩

theorem append_zeros_inj (hx : x.getLast?.any (· != '0') = true)
    (hy : y.getLast?.any (· != '0') = true)
    (h : x ++ List.replicate a '0' = y ++ List.replicate b '0') : x = y := by
  have hrev := congrArg reverse h
  rw [reverse_append, reverse_append, reverse_replicate, reverse_replicate] at hrev
  rw [← head?_reverse] at hx hy
  exact reverse_injective (zeros_append_inj hx hy hrev).2

theorem head?_append_any (y : List Char) (h : x.head?.any (· != '0') = true) :
    (x ++ y).head?.any (· != '0') = true := by
  cases x with
  | nil => cases h
  | cons c x => exact h

/-- **The zeros around a framed text are told from it.** -/
theorem padded_inj {a' b' : Nat} (hx : Framed x) (hy : Framed y)
    (h : List.replicate a '0' ++ x ++ List.replicate b '0'
      = List.replicate a' '0' ++ y ++ List.replicate b' '0') : a = a' ∧ x = y := by
  rw [append_assoc, append_assoc] at h
  obtain ⟨hcnt, htext⟩ :=
    zeros_append_inj (head?_append_any _ hx.1) (head?_append_any _ hy.1) h
  exact ⟨hcnt, append_zeros_inj hx.2 hy.2 htext⟩

variable {c : Char}

/-- A text is cut at the first of a character in one way. -/
theorem cut_inj {r s : List Char} (hx : c ∉ x) (hy : c ∉ y) (h : x ++ c :: r = y ++ c :: s) :
    x = y ∧ r = s := by
  induction x generalizing y with
  | nil =>
    cases y with
    | nil => exact ⟨rfl, (cons.inj h).2⟩
    | cons d y =>
      rw [(cons.inj h).1] at hy
      exact absurd mem_cons_self hy
  | cons d x ih =>
    cases y with
    | nil =>
      rw [(cons.inj h).1] at hx
      exact absurd mem_cons_self hx
    | cons d' y =>
      obtain ⟨rfl, htail⟩ := cons.inj h
      obtain ⟨rfl, hr⟩ := ih (not_mem_of_not_mem_cons hx) (not_mem_of_not_mem_cons hy) htail
      exact ⟨rfl, hr⟩

/-! ## Digits -/

theorem digitChars_inj {xs ys : List (Fin 10)} (h : digitChars xs = digitChars ys) : xs = ys := by
  have hdig : ∀ a b : Fin 10, Nat.digitChar a.val = Nat.digitChar b.val → a = b := by decide
  exact map_injective_iff.mpr hdig h

theorem not_mem_digitChars (hc : ∀ d : Fin 10, Nat.digitChar d.val ≠ c) (digits : List (Fin 10)) :
    c ∉ digitChars digits := by
  intro hmem
  obtain ⟨d, -, hd⟩ := mem_map.mp hmem
  exact hc d hd

theorem point_not_mem_digitChars (digits : List (Fin 10)) : '.' ∉ digitChars digits :=
  not_mem_digitChars (by decide) digits

theorem e_not_mem_digitChars (digits : List (Fin 10)) : 'e' ∉ digitChars digits :=
  not_mem_digitChars (by decide) digits

theorem not_mem_zeros (hc : c ≠ '0') (n : Nat) : c ∉ List.replicate n '0' :=
  fun hmem => hc (eq_of_mem_replicate hmem)

/-- How a fixed text is laid out: the digits with zeros around them, and the point where
the exponent says. -/
theorem fixedText_layout (digits : List (Fin 10)) (point : Int) :
    ∃ (a b : Nat) (whole frac : List Char),
      fixedText digits point = whole ++ '.' :: frac ∧ '.' ∉ whole
      ∧ whole ++ frac = List.replicate a '0' ++ digitChars digits ++ List.replicate b '0'
      ∧ (whole.length : Int) = point + a := by
  unfold fixedText
  split
  · refine ⟨point.natAbs + 1, 0, ['0'], replicate point.natAbs '0' ++ digitChars digits, rfl,
      by decide, ?_, ?_⟩
    · rw [replicate_succ, replicate_zero, append_nil]
      rfl
    · rw [length_singleton]
      omega
  · split
    · refine ⟨0, point.toNat - digits.length + 1, _, ['0'], rfl, ?_, ?_, ?_⟩
      · rw [mem_append]
        rintro (hmem | hmem)
        · exact point_not_mem_digitChars digits hmem
        · exact not_mem_zeros (by decide) _ hmem
      · rw [replicate_zero, nil_append, append_assoc, replicate_succ']
      · rw [length_append, length_replicate, digitChars, length_map]
        omega
    · refine ⟨0, 0, _, _, rfl, point_not_mem_digitChars _, ?_, ?_⟩
      · rw [replicate_zero, nil_append, append_nil, digitChars, digitChars,
          digitChars, ← map_append, take_append_drop]
      · rw [digitChars, length_map, length_take]
        omega

/-- A fixed text has no exponent. -/
theorem e_not_mem_fixedText (digits : List (Fin 10)) (point : Int) :
    'e' ∉ fixedText digits point := by
  have hpoint : 'e' ≠ '.' := by decide
  have hzero : 'e' ≠ '0' := by decide
  obtain ⟨a, b, whole, frac, heq, -, hall, -⟩ := fixedText_layout digits point
  have hparts : 'e' ∉ whole ++ frac := by
    rw [hall]
    simp only [mem_append, not_or]
    exact ⟨⟨not_mem_zeros hzero a, e_not_mem_digitChars digits⟩, not_mem_zeros hzero b⟩
  rw [mem_append, not_or] at hparts
  rw [heq, mem_append, mem_cons, not_or, not_or]
  exact ⟨hparts.1, hpoint, hparts.2⟩

variable {digits digits' : List (Fin 10)} {point : Int}

theorem fixedText_inj {point' : Int} (hx : Framed (digitChars digits))
    (hy : Framed (digitChars digits')) (h : fixedText digits point = fixedText digits' point') :
    digits = digits' ∧ point = point' := by
  obtain ⟨a, b, whole, frac, heq, hwh, hall, hlen⟩ := fixedText_layout digits point
  obtain ⟨a', b', whole', frac', heq', hwh', hall', hlen'⟩ := fixedText_layout digits' point'
  rw [heq, heq'] at h
  obtain ⟨rfl, rfl⟩ := cut_inj hwh hwh' h
  rw [hall] at hall'
  obtain ⟨rfl, hdigs⟩ := padded_inj hx hy hall'
  exact ⟨digitChars_inj hdigs, by omega⟩

/-- Zero is written with zeros only, and nothing else is. -/
theorem fixedText_ne_zero (h : Framed (digitChars digits)) :
    fixedText digits point ≠ fixedText [0] 1 := by
  obtain ⟨a, b, whole, frac, heq, hwh, hall, -⟩ := fixedText_layout digits point
  rw [heq]
  intro heq'
  obtain ⟨rfl, rfl⟩ := cut_inj hwh (by decide : '.' ∉ ['0']) heq'
  cases hdigs : digitChars digits with
  | nil =>
    rw [hdigs] at h
    cases h.1
  | cons c rest =>
    rw [hdigs] at h hall
    have hmem : c ∈ ['0'] ++ ['0'] := by
      rw [hall]
      simp
    have hzero : c = '0' := by simpa using hmem
    rw [hzero] at h
    cases h.1

/-! ## Exponents -/

def mantissa (digits : List (Fin 10)) : List Char :=
  digitChars (digits.take 1) ++ if digits.length ≤ 1 then [] else '.' :: digitChars (digits.drop 1)

theorem filter_digitChars (digits : List (Fin 10)) :
    (digitChars digits).filter (· != '.') = digitChars digits :=
  filter_eq_self.mpr fun _ hc =>
    bne_iff_ne.mpr fun heq => point_not_mem_digitChars digits (heq ▸ hc)

/-- Without the point, the mantissa is the digits. -/
theorem filter_mantissa (digits : List (Fin 10)) :
    (mantissa digits).filter (· != '.') = digitChars digits := by
  unfold mantissa
  rw [filter_append, filter_digitChars]
  split
  next hone => rw [take_of_length_le hone, filter_nil, append_nil]
  · rw [filter_cons_of_neg (by decide), filter_digitChars, digitChars, digitChars,
      ← map_append, take_append_drop, digitChars]

theorem e_not_mem_mantissa (digits : List (Fin 10)) : 'e' ∉ mantissa digits := by
  unfold mantissa
  rw [mem_append, not_or]
  refine ⟨e_not_mem_digitChars _, ?_⟩
  split
  · exact not_mem_nil
  · rw [mem_cons, not_or]
    exact ⟨by decide, e_not_mem_digitChars _⟩

theorem exponentText_inj {m n : Int} (h : exponentText .python m = exponentText .python n) :
    m = n := by
  have hrd : ∀ k : Int, Nat.ofDigitChars 10 (exponentText .python k).tail 0 = k.natAbs := by
    intro k
    unfold exponentText
    dsimp only [tail_cons]
    split
    · rw [Nat.ofDigitChars_cons]
      exact Nat.ofDigitChars_ten_toDigits
    · exact Nat.ofDigitChars_ten_toDigits
  have habs : m.natAbs = n.natAbs := by rw [← hrd m, ← hrd n, h]
  have hsign := (cons.inj h).1
  by_cases hm : m < 0 <;> by_cases hn : n < 0
  · omega
  · rw [if_pos hm, if_neg hn] at hsign
    cases hsign
  · rw [if_neg hm, if_pos hn] at hsign
    cases hsign
  · omega

theorem scientificText_inj {m n : Int}
    (h : scientificText .python digits m = scientificText .python digits' n) :
    digits = digits' ∧ m = n := by
  obtain ⟨hmant, hexp⟩ :=
    cut_inj (e_not_mem_mantissa digits) (e_not_mem_mantissa digits') h
  refine ⟨digitChars_inj ?_, exponentText_inj hexp⟩
  rw [← filter_mantissa, hmant, filter_mantissa]

/-! ## Floats -/

/-- **The shortest digits**: zero, or digits that neither begin nor end with a zero. -/
def Shortest (value : Decimal) : Prop :=
  (value.digits = [0] ∧ value.exponent = 0) ∨ Framed (digitChars value.digits)

/-- The text without its sign. -/
def body (value : Decimal) : List Char :=
  if Style.python.least < value.exponent + 1 ∧ value.exponent + 1 ≤ 16 then
    fixedText value.digits (value.exponent + 1)
  else scientificText .python value.digits value.exponent

variable {value : Decimal}

theorem Shortest.ne_nil (h : value.Shortest) : value.digits ≠ [] := by
  intro hnil
  rcases h with ⟨hzero, -⟩ | hfram
  · rw [hnil] at hzero
    cases hzero
  · rw [hnil] at hfram
    cases hfram.1

theorem body_ne_minus (h : value.digits ≠ []) (rest : List Char) : body value ≠ '-' :: rest := by
  obtain ⟨d, ds, hdigs⟩ := exists_cons_of_ne_nil h
  have hd : ∀ d : Fin 10, Nat.digitChar d.val ≠ '-' := by decide
  have hfst : ∀ tail, digitChars (d :: ds) ++ tail ≠ '-' :: rest := fun tail heq =>
    hd d (cons.inj heq).1
  unfold body
  rw [hdigs]
  split
  · unfold fixedText
    split
    · intro heq
      cases heq
    · split
      · rw [append_assoc]
        exact hfst _
      · obtain ⟨n, hn⟩ : ∃ n, (value.exponent + 1).toNat = n + 1 :=
          ⟨(value.exponent + 1).toNat - 1, by omega⟩
        rw [hn]
        intro heq
        exact hd d (cons.inj heq).1
  · intro heq
    exact hd d (cons.inj heq).1

theorem body_inj {a b : Decimal} (ha : a.Shortest) (hb : b.Shortest) (h : body a = body b) :
    a.digits = b.digits ∧ a.exponent = b.exponent := by
  have he : ∀ digits n, 'e' ∈ scientificText .python digits n := fun digits n =>
    (Json.number_scientificText .python digits n).2
  unfold body at h
  split at h <;> split at h
  · rcases ha with ⟨hda, hea⟩ | hfa <;> rcases hb with ⟨hdb, heb⟩ | hfb
    · exact ⟨hda.trans hdb.symm, hea.trans heb.symm⟩
    · rw [hda, hea] at h
      exact absurd h.symm (fixedText_ne_zero hfb)
    · rw [hdb, heb] at h
      exact absurd h (fixedText_ne_zero hfa)
    · obtain ⟨hdigs, hpoint⟩ := fixedText_inj hfa hfb h
      exact ⟨hdigs, by omega⟩
  · exact absurd (h ▸ he _ _) (e_not_mem_fixedText _ _)
  · exact absurd (h.symm ▸ he _ _) (e_not_mem_fixedText _ _)
  · exact scientificText_inj h

/-- **Two floats with one text are one.** -/
theorem text_inj {a b : Decimal} (ha : a.Shortest) (hb : b.Shortest)
    (h : a.text .python = b.text .python) : a = b := by
  have heq : (if a.negative then ['-'] else []) ++ body a
      = (if b.negative then ['-'] else []) ++ body b := h
  obtain ⟨negative, digits, exponent⟩ := a
  obtain ⟨negative', digits', exponent'⟩ := b
  cases negative <;> cases negative'
  · obtain ⟨rfl, rfl⟩ := body_inj ha hb heq
    rfl
  · exact absurd heq (body_ne_minus ha.ne_nil _)
  · exact absurd heq.symm (body_ne_minus hb.ne_nil _)
  · obtain ⟨rfl, rfl⟩ := body_inj ha hb (cons.inj heq).2
    rfl

end Decimal
