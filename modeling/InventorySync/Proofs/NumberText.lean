import InventorySync.Json.Reader
import InventorySync.Json.Writer
import InventorySync.Proofs.Decimal
import Mathlib.Data.List.TakeDrop

/-!
# The text of a number determines the number

The text of a double is a number token with a point or a power of ten whose value is the double, so
it reads back; the text of an integer has neither and its digits determine it.

## Key results

- `Binary64.exists_token`: the text of a double as a token
- `Binary64.number_text`: the text of a double reads back as the double
- `Number.text_injective`: numbers with one text are the same number
-/

namespace InventorySync

/-! ## Digits -/

theorem decimalDigits_ne_nil (n : Nat) : decimalDigits n ≠ [] := Nat.toDigits_ne_nil

theorem isDigit_of_mem_decimalDigits {n : Nat} {c : Char} (h : c ∈ decimalDigits n) :
    c.isDigit = true :=
  Nat.isDigit_of_mem_toDigits (by decide) (by decide) h

/-- Of the `decimalDigits`, only those of zero begin with a zero. -/
theorem head?_decimalDigits {n : Nat} (hn : n ≠ 0) : (decimalDigits n).head? ≠ some '0' := by
  induction n using Nat.strongRecOn with
  | ind n ih =>
    unfold decimalDigits
    rw [Nat.toDigits_eq_if (by decide)]
    split
    next hsmall =>
      have hdigit : ∀ k < 10, k ≠ 0 → Nat.digitChar k ≠ '0' := by decide
      simpa using hdigit n hsmall hn
    next hlarge =>
      have hhead : (Nat.toDigits 10 (n / 10)).head? ≠ some '0' := ih (n / 10) (by omega) (by omega)
      cases hds : Nat.toDigits 10 (n / 10) with
      | nil => exact absurd hds Nat.toDigits_ne_nil
      | cons c cs =>
        rw [hds] at hhead
        exact hhead

namespace Json.Reader

theorem natOfDigits_eq (ds : List Char) : natOfDigits ds = Nat.ofDigitChars 10 ds 0 := by
  simp only [natOfDigits, Nat.ofDigitChars, Nat.mul_comm 10]

theorem natOfDigits_decimalDigits (n : Nat) : natOfDigits (decimalDigits n) = n := by
  rw [natOfDigits_eq]
  exact Nat.ofDigitChars_ten_toDigits

theorem natOfDigits_zeros_append (k : Nat) (ds : List Char) :
    natOfDigits (List.replicate k '0' ++ ds) = natOfDigits ds := by
  simp only [natOfDigits_eq, Nat.ofDigitChars_append, Nat.ofDigitChars_replicate_zero, Nat.mul_zero]

theorem natOfDigits_append_zeros (ds : List Char) (k : Nat) :
    natOfDigits (ds ++ List.replicate k '0') = natOfDigits ds * 10 ^ k := by
  simp only [natOfDigits_eq, Nat.ofDigitChars_append, Nat.ofDigitChars_replicate_zero,
    Nat.mul_comm]

/-- `someDigits` reads a run of digits up to the first character that is none. -/
theorem someDigits_append {ds rest : List Char} (hne : ds ≠ []) (hds : ∀ c ∈ ds, c.isDigit = true)
    (hrest : ∀ c ∈ rest.head?, c.isDigit = false) : someDigits (ds ++ rest) = .ok (ds, rest) := by
  have htake : rest.takeWhile Char.isDigit = [] := by
    cases rest with
    | nil => rfl
    | cons c rest => simp [hrest c rfl]
  have hdrop : rest.dropWhile Char.isDigit = rest := by
    cases rest with
    | nil => rfl
    | cons c rest => simp [hrest c rfl]
  have hdigits : digits (ds ++ rest) = (ds, rest) := by
    rw [digits, List.span_eq_takeWhile_dropWhile, List.takeWhile_append_of_pos hds,
      List.dropWhile_append_of_pos hds, htake, hdrop, List.append_nil]
  rw [someDigits, hdigits]
  cases ds with
  | nil => exact absurd rfl hne
  | cons d ds => rfl

end Json.Reader

open Json.Reader

/-! ## Tokens -/

/-- A number written with digits after the point, or with a power of ten, or with both: a text for
`unsignedNumber`. -/
structure Token where
  whole : List Char
  part : List Char
  power : Option Int

namespace Token

def pointText (part : List Char) : List Char := if part = [] then [] else '.' :: part

def powerText : Option Int → List Char
  | none => []
  | some p => 'e' :: (if p < 0 then '-' else '+') :: decimalDigits p.natAbs

def text (t : Token) : List Char := t.whole ++ (pointText t.part ++ powerText t.power)

/-- The double that the token denotes. -/
def value? (negative : Bool) (t : Token) : Option Binary64 :=
  Binary64.ofDecimal? negative (natOfDigits (t.whole ++ t.part))
    (t.power.getD 0 - t.part.length)

/-- The token is one of the grammar, and has a point or a power, so that it is no integer. -/
structure WellFormed (t : Token) : Prop where
  whole_ne_nil : t.whole ≠ []
  whole_digits : ∀ c ∈ t.whole, c.isDigit = true
  no_leading_zero : t.whole.head? = some '0' → t.whole = ['0']
  part_digits : ∀ c ∈ t.part, c.isDigit = true
  fractional : t.part ≠ [] ∨ t.power ≠ none

theorem head?_powerText (power : Option Int) : ∀ c ∈ (powerText power).head?, c = 'e' := by
  cases power <;> simp [powerText]

theorem head?_pointText_append (part : List Char) (power : Option Int) :
    ∀ c ∈ (pointText part ++ powerText power).head?, c.isDigit = false := by
  unfold pointText
  split
  · intro c hc
    rw [head?_powerText power c hc]
    rfl
  · intro c hc
    obtain rfl : '.' = c := Option.some.inj hc
    rfl

theorem wholePart_text {t : Token} (ht : t.WellFormed) :
    wholePart t.text = .ok (t.whole, pointText t.part ++ powerText t.power) := by
  have hread := someDigits_append ht.whole_ne_nil ht.whole_digits
    (head?_pointText_append t.part t.power)
  unfold wholePart text
  rw [hread]
  split
  next c rest rest' heq =>
    have hwhole : t.whole = '0' :: c :: rest := (Prod.mk.inj (Except.ok.inj heq)).1
    have hzero := ht.no_leading_zero (by rw [hwhole]; rfl)
    rw [hwhole] at hzero
    simp at hzero
  next => rfl

theorem fraction_text {t : Token} (ht : t.WellFormed) :
    fraction (pointText t.part ++ powerText t.power) = .ok (t.part, powerText t.power) := by
  unfold pointText
  split
  next hempty =>
    rw [hempty]
    cases t.power <;> rfl
  next hne =>
    refine someDigits_append hne ht.part_digits ?_
    intro c hc
    rw [head?_powerText t.power c hc]
    rfl

theorem exponent_powerText (power : Option Int) : exponent (powerText power) = .ok (power, []) := by
  cases power with
  | none => rfl
  | some p =>
    have hread : someDigits (decimalDigits p.natAbs) = .ok (decimalDigits p.natAbs, []) := by
      have hall : someDigits (decimalDigits p.natAbs ++ []) = .ok (decimalDigits p.natAbs, []) :=
        someDigits_append (decimalDigits_ne_nil p.natAbs)
          (fun c => isDigit_of_mem_decimalDigits) (by simp)
      rwa [List.append_nil] at hall
    have hnat := natOfDigits_decimalDigits p.natAbs
    by_cases hp : p < 0
    · have habs : -(p.natAbs : Int) = p := by omega
      rw [powerText, if_pos hp]
      show (someDigits _).map _ = _
      rw [hread, Except.map, hnat, habs]
    · have habs : (p.natAbs : Int) = p := by omega
      rw [powerText, if_neg hp]
      show (someDigits _).map _ = _
      rw [hread, Except.map, hnat, habs]

/-- `unsignedNumber` reads a token that is `WellFormed` as its `value?`. -/
theorem unsignedNumber_text {negative : Bool} {t : Token} {x : Binary64} (ht : t.WellFormed)
    (hx : t.value? negative = some x) : unsignedNumber negative t.text = .ok (.real x, []) := by
  have hreal : ¬ (t.part.isEmpty = true ∧ t.power.isNone = true) := by
    rintro ⟨hpart, hpower⟩
    rcases ht.fractional with h | h
    · exact h (List.isEmpty_iff.mp hpart)
    · exact h (Option.isNone_iff_eq_none.mp hpower)
  unfold value? at hx
  simp only [unsignedNumber, wholePart_text ht, fraction_text ht, exponent_powerText, bind,
    Except.bind, if_neg hreal, hx, Option.map_some, pure, Except.pure]

end Token

/-! ## The tokens of doubles -/

namespace Binary64

section

variable (negative : Bool) {d : Nat} {e : Int}

/-- Below one, the token for `ofDecimal?` has zeros after the point. -/
theorem small_token {k : Nat} (hk : (k : Int) = -(((decimalDigits d).length : Int) + e)) :
    (Token.mk ['0'] (List.replicate k '0' ++ decimalDigits d) none).WellFormed ∧
      (Token.mk ['0'] (List.replicate k '0' ++ decimalDigits d) none).value? negative =
        ofDecimal? negative d e := by
  constructor
  · refine ⟨by simp, by simp, fun _ => rfl, ?_, .inl (by simp [decimalDigits_ne_nil])⟩
    intro c hc
    rcases List.mem_append.mp hc with h | h
    · rw [List.eq_of_mem_replicate h]
      rfl
    · exact isDigit_of_mem_decimalDigits h
  · have hvalue : natOfDigits (['0'] ++ (List.replicate k '0' ++ decimalDigits d)) = d := by
      have hzeros := natOfDigits_zeros_append (k + 1) (decimalDigits d)
      rw [natOfDigits_decimalDigits] at hzeros
      exact hzeros
    have hexp : (0 : Int) - ((List.replicate k '0' ++ decimalDigits d).length : Nat) = e := by
      rw [List.length_append, List.length_replicate]
      omega
    simp only [Token.value?, hvalue, Option.getD_none, hexp]

/-- From one on, the token for `ofDecimal?` is written by `withPoint`, with the point after `count`
digits. -/
theorem large_token (hd : d ≠ 0) (count : Nat)
    (hcount : (count : Int) = ((decimalDigits d).length : Int) + e) (hpos : 0 < count) :
    ∃ t : Token, t.WellFormed ∧ t.value? negative = ofDecimal? negative d e ∧
      t.text = withPoint (decimalDigits d) count := by
  have hhead := head?_decimalDigits hd
  have hdigits : ∀ c ∈ decimalDigits d, c.isDigit = true := fun c => isDigit_of_mem_decimalDigits
  have hnat := natOfDigits_decimalDigits d
  have hne := decimalDigits_ne_nil d
  -- From here on only this matters of the digits: they are some, and the first is no zero.
  generalize decimalDigits d = ds at *
  by_cases hfits : ds.length ≤ count
  · -- All digits stand before the point, and one zero is shown behind it.
    refine ⟨⟨ds ++ List.replicate (count - ds.length) '0', ['0'], none⟩, ?_, ?_, ?_⟩
    · refine ⟨by simp [hne], ?_, ?_, by simp, .inl (by simp)⟩
      · intro c hc
        rcases List.mem_append.mp hc with h | h
        · exact hdigits c h
        · rw [List.eq_of_mem_replicate h]
          rfl
      · intro hzero
        cases ds with
        | nil => exact absurd rfl hne
        | cons c cs => exact absurd hzero hhead
    -- The zeros that fill up and the one that is shown are powers of ten, taken off by the
    -- exponent.
    · have hzeros : ds ++ List.replicate (count - ds.length) '0' ++ ['0'] =
          ds ++ List.replicate (count - ds.length + 1) '0' := by
        rw [List.append_assoc, List.replicate_succ']
      have hexp : (0 : Int) - (['0'].length : Nat) = e - (count - ds.length + 1 : Nat) := by
        show (0 : Int) - (1 : Nat) = _
        omega
      simp only [Token.value?, hzeros, natOfDigits_append_zeros, hnat, Option.getD_none, hexp]
      exact ofDecimal?_mul_pow negative hd e _
    · simp [Token.text, Token.pointText, Token.powerText, withPoint, List.take_of_length_le hfits,
        List.drop_of_length_le hfits]
  · -- Some digits stand behind the point.
    have hpart : ds.drop count ≠ [] := by
      rw [ne_eq, List.drop_eq_nil_iff]
      exact hfits
    refine ⟨⟨ds.take count, ds.drop count, none⟩, ?_, ?_, ?_⟩
    · refine ⟨?_, fun c hc => hdigits c (List.mem_of_mem_take hc), ?_,
        fun c hc => hdigits c (List.mem_of_mem_drop hc), .inl hpart⟩
      · simp [hne, hpos.ne']
      · intro hzero
        rw [List.head?_take, if_neg hpos.ne'] at hzero
        exact absurd hzero hhead
    -- The digits together are those of `d`, and those behind the point give the exponent.
    · have hexp : (0 : Int) - ((ds.drop count).length : Nat) = e := by
        rw [List.length_drop]
        omega
      simp only [Token.value?, List.take_append_drop, hnat, Option.getD_none, hexp]
    · have hnone : count - ds.length = 0 := by omega
      simp [Token.text, Token.pointText, Token.powerText, withPoint, hnone, hpart]

/-- Far from one, the token for `ofDecimal?` has one digit before the point and a power of ten. -/
theorem power_token {c : Char} {cs : List Char} (hds : decimalDigits d = c :: cs) {p : Int}
    (hp : p = ((decimalDigits d).length : Int) + e - 1) :
    (Token.mk [c] cs (some p)).WellFormed ∧
      (Token.mk [c] cs (some p)).value? negative = ofDecimal? negative d e := by
  have hdigits : ∀ b ∈ c :: cs, b.isDigit = true := by
    rw [← hds]
    exact fun b => isDigit_of_mem_decimalDigits
  have hnat : natOfDigits (c :: cs) = d := by
    rw [← hds]
    exact natOfDigits_decimalDigits d
  constructor
  · refine ⟨by simp, ?_, ?_, fun b hb => hdigits b (.tail _ hb), .inr (by simp)⟩
    · intro b hb
      rw [List.mem_singleton.mp hb]
      exact hdigits c (.head _)
    · intro hzero
      rw [Option.some.inj hzero]
  · have hexp : p - (cs.length : Nat) = e := by
      rw [hds, List.length_cons] at hp
      omega
    simp only [Token.value?, List.singleton_append, hnat, Option.getD_some, hexp]

end

/-- The sign in front of a text. -/
def signed (negative : Bool) (body : List Char) : List Char :=
  if negative then '-' :: body else body

/-- The text of a double is a `WellFormed` token with the double as its `value?`. -/
theorem exists_token (x : Binary64) : ∃ t : Token, t.WellFormed ∧
    t.value? x.negative = some x ∧ x.text .document = signed x.negative t.text := by
  have hback : ofDecimal? x.negative x.shortest.digits x.shortest.exponent = some x :=
    readsBack_shortest x
  by_cases hx : x.significand = 0
  -- Zero is written as one digit, and its sign is kept.
  · refine ⟨⟨['0'], ['0'], none⟩, ?_, ?_, ?_⟩
    · exact ⟨by simp, by simp, fun _ => rfl, by simp, .inl (by simp)⟩
    · show some (zero x.negative) = some x
      rw [← eq_zero hx]
    · simp [text, hx, signed, Token.text, Token.pointText, Token.powerText]
  -- What is written is the shortest decimal that reads back, so a token for it is one for `x`.
  · have hd := digits_ne_zero_of_readsBack hx hback
    simp only [text, if_neg hx]
    generalize x.shortest = n at hback hd
    generalize hleading : ((decimalDigits n.digits).length : Int) + n.exponent - 1 = leading
    by_cases hpositional : Layout.document.leastPositional ≤ leading ∧
        leading ≤ Layout.document.greatestPositional
    · -- Positional notation, with the point in front of the digits or behind some of them.
      rw [if_pos hpositional]
      by_cases hneg : leading < 0
      · obtain ⟨hwell, hvalue⟩ :=
          small_token x.negative (d := n.digits) (e := n.exponent)
            (k := (-leading - 1).toNat) (by omega)
        refine ⟨_, hwell, hvalue.trans hback, ?_⟩
        rw [if_pos hneg]
        simp [signed, Token.text, Token.pointText, Token.powerText, decimalDigits_ne_nil]
      · obtain ⟨t, hwell, hvalue, htext⟩ :=
          large_token x.negative hd (e := n.exponent) (leading.toNat + 1) (by omega) (by omega)
        refine ⟨t, hwell, hvalue.trans hback, ?_⟩
        rw [if_neg hneg, htext, signed]
    · -- Scientific notation; a single digit stands without a point.
      rw [if_neg hpositional]
      cases hds : decimalDigits n.digits with
      | nil => exact absurd hds (decimalDigits_ne_nil _)
      | cons c cs =>
        obtain ⟨hwell, hvalue⟩ :=
          power_token x.negative hds (e := n.exponent) hleading.symm
        refine ⟨_, hwell, hvalue.trans hback, ?_⟩
        cases cs <;> simp [signed, Token.text, Token.pointText, Token.powerText]

/-- `number` reads the text of a double as the double. -/
theorem number_text (x : Binary64) : number (x.text .document) = .ok (.real x, []) := by
  obtain ⟨t, hwell, hvalue, htext⟩ := exists_token x
  rw [htext]
  have hread := Token.unsignedNumber_text hwell hvalue
  cases hx : x.negative with
  | true =>
    rw [hx] at hread
    exact hread
  | false =>
    rw [hx] at hread
    -- The text begins with a digit, not with a sign.
    cases hwhole : t.whole with
    | nil => exact absurd hwhole hwell.whole_ne_nil
    | cons c cs =>
      have hdigit := hwell.whole_digits c (by rw [hwhole]; exact .head _)
      have hminus : c ≠ '-' := by
        rintro rfl
        cases hdigit
      have hcons : t.text = c :: (cs ++ (Token.pointText t.part ++ Token.powerText t.power)) := by
        rw [Token.text, hwhole, List.cons_append]
      show number t.text = _
      rw [hcons] at hread ⊢
      unfold number
      split
      next heq => exact absurd (List.cons.inj heq).1 hminus
      next => exact hread

end Binary64

/-! ## Texts of numbers -/

/-- The characters that texts of numbers are made of. -/
def numberChar (c : Char) : Bool := c.isDigit || c == '-' || c == '+' || c == '.' || c == 'e'

theorem numberChar_of_isDigit {c : Char} (h : c.isDigit = true) : numberChar c = true := by
  simp [numberChar, h]

theorem mem_intText {i : Int} {c : Char} (h : c ∈ intText i) : c = '-' ∨ c.isDigit = true := by
  unfold intText at h
  split at h
  · rcases List.mem_cons.mp h with rfl | hdigit
    · exact .inl rfl
    · exact .inr (isDigit_of_mem_decimalDigits hdigit)
  · exact .inr (isDigit_of_mem_decimalDigits h)

theorem decimalDigits_injective {m n : Nat} (h : decimalDigits m = decimalDigits n) : m = n := by
  rw [← natOfDigits_decimalDigits m, h, natOfDigits_decimalDigits]

theorem minus_not_mem_decimalDigits (n : Nat) : '-' ∉ decimalDigits n := by
  intro hmem
  have hdigit := isDigit_of_mem_decimalDigits hmem
  cases hdigit

theorem intText_injective {i j : Int} (h : intText i = intText j) : i = j := by
  unfold intText at h
  split at h
  next hi =>
    split at h
    next hj =>
      have habs := decimalDigits_injective (List.cons.inj h).2
      omega
    next hj => exact absurd (h ▸ List.mem_cons_self) (minus_not_mem_decimalDigits j.natAbs)
  next hi =>
    split at h
    next hj => exact absurd (h ▸ List.mem_cons_self) (minus_not_mem_decimalDigits i.natAbs)
    next hj =>
      have habs := decimalDigits_injective h
      omega

namespace Token

theorem numberChar_of_mem_powerText {power : Option Int} {c : Char} (h : c ∈ powerText power) :
    numberChar c = true := by
  cases power with
  | none => cases h
  | some p =>
    rcases List.mem_cons.mp h with rfl | h
    · rfl
    · rcases List.mem_cons.mp h with rfl | h
      · split <;> rfl
      · exact numberChar_of_isDigit (isDigit_of_mem_decimalDigits h)

theorem numberChar_of_mem_text {t : Token} (ht : t.WellFormed) {c : Char} (h : c ∈ t.text) :
    numberChar c = true := by
  rcases List.mem_append.mp h with h | h
  · exact numberChar_of_isDigit (ht.whole_digits c h)
  · rcases List.mem_append.mp h with h | h
    · unfold pointText at h
      split at h
      · cases h
      · rcases List.mem_cons.mp h with rfl | h
        · rfl
        · exact numberChar_of_isDigit (ht.part_digits c h)
    · exact numberChar_of_mem_powerText h

/-- The text of a `WellFormed` token has a point or an `e`, which no integer has. -/
theorem point_or_power_mem_text {t : Token} (ht : t.WellFormed) : '.' ∈ t.text ∨ 'e' ∈ t.text := by
  rcases ht.fractional with hpart | hpower
  · left
    simp [text, pointText, hpart]
  · right
    obtain ⟨p, hp⟩ := Option.ne_none_iff_exists'.mp hpower
    simp [text, powerText, hp]

end Token

namespace Number

theorem numberChar_of_mem_text {n : Number} {c : Char} (h : c ∈ n.text) : numberChar c = true := by
  cases n with
  | int i =>
    rcases mem_intText h with rfl | hdigit
    · rfl
    · exact numberChar_of_isDigit hdigit
  | real x =>
    obtain ⟨t, hwell, -, htext⟩ := Binary64.exists_token x
    have hmem : c ∈ Binary64.signed x.negative t.text := htext ▸ h
    unfold Binary64.signed at hmem
    split at hmem
    · rcases List.mem_cons.mp hmem with rfl | hbody
      · rfl
      · exact Token.numberChar_of_mem_text hwell hbody
    · exact Token.numberChar_of_mem_text hwell hmem

theorem text_ne_nil (n : Number) : n.text ≠ [] := by
  cases n with
  | int i =>
    show intText i ≠ []
    unfold intText
    split
    · exact List.cons_ne_nil _ _
    · exact decimalDigits_ne_nil _
  | real x =>
    obtain ⟨t, hwell, -, htext⟩ := Binary64.exists_token x
    show x.text .document ≠ []
    rw [htext]
    unfold Binary64.signed
    split
    · exact List.cons_ne_nil _ _
    · simp [Token.text, hwell.whole_ne_nil]

/-- The `text` of an `int` is not that of a `real`. -/
theorem int_text_ne_real_text (i : Int) (x : Binary64) : (int i).text ≠ (real x).text := by
  intro h
  obtain ⟨t, hwell, -, htext⟩ := Binary64.exists_token x
  have hshown : '.' ∈ intText i ∨ 'e' ∈ intText i := by
    have hsame : intText i = Binary64.signed x.negative t.text := h.trans htext
    rw [hsame]
    unfold Binary64.signed
    split
    · exact (Token.point_or_power_mem_text hwell).imp (.tail _) (.tail _)
    · exact Token.point_or_power_mem_text hwell
  rcases hshown with hpoint | hpower
  · rcases mem_intText hpoint with h | h <;> cases h
  · rcases mem_intText hpower with h | h <;> cases h

/-- `text` determines the number. -/
theorem text_injective {m n : Number} (h : m.text = n.text) : m = n := by
  cases m with
  | int i =>
    cases n with
    | int j => rw [intText_injective h]
    | real y => exact absurd h (int_text_ne_real_text i y)
  | real x =>
    cases n with
    | int j => exact absurd h.symm (int_text_ne_real_text j x)
    | real y =>
      have hread := Binary64.number_text x
      rw [show x.text .document = y.text .document from h, Binary64.number_text] at hread
      exact (Prod.mk.inj (Except.ok.inj hread)).1.symm

end Number

end InventorySync
