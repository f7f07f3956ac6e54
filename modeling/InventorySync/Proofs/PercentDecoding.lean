import InventorySync.Json.Reader
import InventorySync.Text.Percent

/-!
# Percent-encoded text read back

A percent sign with two hexadecimal digits stands for a byte, and every other character for the
bytes of its UTF-8 form. Encoding changes nothing about what a text stands for, as long as percent
signs and digits are left alone; so an encoded text stands for its own UTF-8 form, unless it had
escapes before it was encoded.

## Key results

- `SparesEscapes.percentDecoded_percentEncode`: encoding does not change what a text stands for
- `percentDecoded_eq_utf8_iff`: the texts that stand for themselves
- `utf8_injective`: texts with one UTF-8 form are equal
-/

namespace InventorySync.Text

open Json.Reader (hexValue? byteCount)

/-! ## Bytes -/

/-- The bytes of the UTF-8 form. -/
def utf8 (cs : List Char) : List UInt8 := cs.flatMap String.utf8EncodeChar

@[simp] theorem utf8_cons (c : Char) (cs : List Char) :
    utf8 (c :: cs) = String.utf8EncodeChar c ++ utf8 cs := List.flatMap_cons

@[simp] theorem byteCount_cons (c : Char) (cs : List Char) :
    byteCount (c :: cs) = c.utf8Size + byteCount cs := rfl

theorem length_utf8 (cs : List Char) : (utf8 cs).length = byteCount cs := by
  induction cs with
  | nil => rfl
  | cons c cs ih =>
    rw [utf8_cons, List.length_append, String.length_utf8EncodeChar, ih, byteCount_cons]

theorem utf8_injective {xs ys : List Char} (h : utf8 xs = utf8 ys) : xs = ys := by
  have hencoded : xs.utf8Encode = ys.utf8Encode := congrArg List.toByteArray h
  rw [← String.toByteArray_ofList, ← String.toByteArray_ofList, String.toByteArray_inj] at hencoded
  exact String.ofList_injective hencoded

/-- A part of a text whose `byteCount` is not less is all of it. -/
theorem eq_of_sublist_of_byteCount_le {xs ys : List Char} (h : xs.Sublist ys)
    (hcount : byteCount ys ≤ byteCount xs) : xs = ys := by
  have hle : ∀ {xs ys : List Char}, xs.Sublist ys → byteCount xs ≤ byteCount ys := by
    intro xs ys h
    induction h with
    | slnil => exact Nat.le_refl _
    | cons c _ ih => rw [byteCount_cons]; omega
    | cons_cons c _ ih => rw [byteCount_cons, byteCount_cons]; omega
  induction h with
  | slnil => rfl
  | cons c h _ =>
    -- The character left out is at least one byte.
    have hc := c.utf8Size_pos
    have hrest := hle h
    rw [byteCount_cons] at hcount
    omega
  | cons_cons c _ ih =>
    rw [byteCount_cons, byteCount_cons] at hcount
    rw [ih (by omega)]

/-! ## Escapes -/

/-- The byte that two hexadecimal digits write. -/
def hexByte? (a b : Char) : Option UInt8 :=
  match hexValue? a, hexValue? b with
  | some x, some y => some (UInt8.ofNat (x * 16 + y))
  | _, _ => none

/-- The byte that a character and the two after it stand for as an escape. -/
def escape? (c : Char) : List Char → Option UInt8
  | a :: b :: _ => if c = '%' then hexByte? a b else none
  | _ => none

/-- Whether there is an escape anywhere in a text. -/
def hasEscape : List Char → Bool
  | [] => false
  | c :: rest => (escape? c rest).isSome || hasEscape rest

/-- The bytes that a text stands for. -/
def percentDecoded : List Char → List UInt8
  | [] => []
  | c :: rest =>
    match escape? c rest with
    | some byte => byte :: percentDecoded (rest.drop 2)
    | none => String.utf8EncodeChar c ++ percentDecoded rest
termination_by cs => cs.length
decreasing_by
  all_goals
    simp only [List.length_drop, List.length_cons]
    omega

theorem exists_of_escape? {c : Char} {rest : List Char} {byte : UInt8}
    (h : escape? c rest = some byte) :
    c = '%' ∧ ∃ a b after, rest = a :: b :: after ∧ (hexValue? a).isSome = true ∧
      (hexValue? b).isSome = true := by
  unfold escape? at h
  split at h
  case h_1 a b after =>
    split at h
    case isTrue hc =>
      refine ⟨hc, a, b, after, rfl, ?_⟩
      unfold hexByte? at h
      split at h
      case h_1 x y hx hy => simp [hx, hy]
      case h_2 => cases h
    case isFalse => cases h
  case h_2 => cases h

theorem escape?_of_first {c a : Char} (h : hexValue? a = none) (rest : List Char) :
    escape? c (a :: rest) = none := by
  cases rest <;> simp [escape?, hexByte?, h]

theorem escape?_of_second {c a b : Char} (h : hexValue? b = none) (rest : List Char) :
    escape? c (a :: b :: rest) = none := by
  cases ha : hexValue? a <;> simp [escape?, hexByte?, ha, h]

theorem length_percentDecoded_le (cs : List Char) : (percentDecoded cs).length ≤ byteCount cs := by
  fun_induction percentDecoded cs with
  | case1 => exact Nat.le_refl _
  | case2 c rest byte hbyte ih =>
    obtain ⟨-, a, b, after, rfl, -, -⟩ := exists_of_escape? hbyte
    have hc := c.utf8Size_pos
    simp only [List.drop_succ_cons, List.drop_zero] at ih
    simp only [List.length_cons, byteCount_cons, List.drop_succ_cons, List.drop_zero]
    omega
  | case3 c rest hnone ih =>
    rw [List.length_append, String.length_utf8EncodeChar, byteCount_cons]
    omega

/-- With an escape `percentDecoded` makes fewer bytes than the text has. -/
theorem length_percentDecoded_lt {cs : List Char} (h : hasEscape cs = true) :
    (percentDecoded cs).length < byteCount cs := by
  fun_induction percentDecoded cs with
  | case1 => cases h
  | case2 c rest byte hbyte ih =>
    obtain ⟨-, a, b, after, rfl, -, -⟩ := exists_of_escape? hbyte
    have hle := length_percentDecoded_le after
    have hc := c.utf8Size_pos
    have ha := a.utf8Size_pos
    simp only [List.length_cons, byteCount_cons, List.drop_succ_cons, List.drop_zero]
    omega
  | case3 c rest hnone ih =>
    have hlt := ih (by simpa [hasEscape, hnone] using h)
    rw [List.length_append, String.length_utf8EncodeChar, byteCount_cons]
    omega

/-- A text stands for its own bytes, by `percentDecoded`, exactly if `hasEscape` finds none in
it. -/
theorem percentDecoded_eq_utf8_iff {cs : List Char} :
    percentDecoded cs = utf8 cs ↔ hasEscape cs = false := by
  constructor
  · intro h
    cases hescape : hasEscape cs with
    | false => rfl
    | true =>
      have hlt := length_percentDecoded_lt hescape
      rw [h, length_utf8] at hlt
      exact absurd hlt (Nat.lt_irrefl _)
  · intro h
    fun_induction percentDecoded cs with
    | case1 => rfl
    | case2 c rest byte hbyte ih => simp [hasEscape, hbyte] at h
    | case3 c rest hnone ih =>
      rw [utf8_cons, ih (by simpa [hasEscape, hnone] using h)]

/-! ## Encoding -/

theorem hexValue?_upperHexDigit (n : Nat) : hexValue? (upperHexDigit n) = some (n % 16) := by
  have hdigits : ∀ k < 16, hexValue? (Nat.digitChar k).toUpper = some k := by decide
  exact hdigits (n % 16) (Nat.mod_lt _ (by decide))

theorem percentDecoded_percentByte (byte : UInt8) (rest : List Char) :
    percentDecoded (percentByte byte ++ rest) = byte :: percentDecoded rest := by
  have hvalue : byte.toNat / 16 % 16 * 16 + byte.toNat % 16 = byte.toNat := by
    have := byte.toNat_lt
    omega
  have hescape : escape? '%' (upperHexDigit (byte.toNat / 16) :: upperHexDigit byte.toNat :: rest) =
      some byte := by
    simp only [escape?, if_true, hexByte?, hexValue?_upperHexDigit, hvalue, UInt8.ofNat_toNat]
  rw [percentByte, List.cons_append, List.cons_append, List.cons_append, List.nil_append,
    percentDecoded, hescape]
  rfl

theorem percentDecoded_percentChar (c : Char) (rest : List Char) :
    percentDecoded (percentChar c ++ rest) = String.utf8EncodeChar c ++ percentDecoded rest := by
  rw [percentChar]
  induction String.utf8EncodeChar c with
  | nil => rfl
  | cons byte bytes ih =>
    rw [List.flatMap_cons, List.append_assoc, percentDecoded_percentByte, ih, List.cons_append]

/-- With these `escaped` characters what escapes are made of is left alone. -/
structure SparesEscapes (escaped : Char → Bool) : Prop where
  percent : escaped '%' = false
  digit {c : Char} (h : (hexValue? c).isSome = true) : escaped c = false

theorem percentEncode_cons (escaped : Char → Bool) (c : Char) (rest : List Char) :
    percentEncode escaped (c :: rest) =
      (if escaped c then percentChar c else [c]) ++ percentEncode escaped rest :=
  List.flatMap_cons

/-- What `percentChar` makes of a character begins with a percent sign. -/
theorem exists_percentChar (c : Char) : ∃ rest, percentChar c = '%' :: rest := by
  obtain ⟨byte, bytes, hbytes⟩ := List.exists_cons_of_ne_nil (String.utf8EncodeChar_ne_nil (c := c))
  rw [percentChar, hbytes, List.flatMap_cons]
  exact ⟨_, rfl⟩

variable {escaped : Char → Bool}

theorem SparesEscapes.hexValue?_eq_none (h : SparesEscapes escaped) {c : Char}
    (hc : escaped c = true) : hexValue? c = none := by
  cases hvalue : hexValue? c with
  | none => rfl
  | some n => rw [h.digit (by rw [hvalue]; rfl)] at hc; cases hc

/-- What follows a character makes an escape of it after `percentEncode` exactly if it does so as it
is. -/
theorem SparesEscapes.escape?_percentEncode (h : SparesEscapes escaped) (c : Char)
    (rest : List Char) : escape? c (percentEncode escaped rest) = escape? c rest := by
  have hpercent : hexValue? '%' = none := by decide
  match rest with
  | [] => rfl
  | a :: rest =>
    rw [percentEncode_cons]
    cases ha : escaped a with
    | true =>
      -- Neither `a`, which is encoded, nor its percent sign is a digit of an escape.
      obtain ⟨more, hmore⟩ := exists_percentChar a
      rw [if_pos rfl, hmore, List.cons_append, escape?_of_first hpercent,
        escape?_of_first (h.hexValue?_eq_none ha)]
    | false =>
      rw [if_neg Bool.false_ne_true, List.singleton_append]
      match rest with
      | [] => rfl
      | b :: rest =>
        rw [percentEncode_cons]
        cases hb : escaped b with
        | true =>
          obtain ⟨more, hmore⟩ := exists_percentChar b
          rw [if_pos rfl, hmore, List.cons_append, escape?_of_second hpercent,
            escape?_of_second (h.hexValue?_eq_none hb)]
        | false => rfl

/-- What a text stands for by `percentDecoded` is not changed by `percentEncode`. -/
theorem SparesEscapes.percentDecoded_percentEncode (h : SparesEscapes escaped) (cs : List Char) :
    percentDecoded (percentEncode escaped cs) = percentDecoded cs := by
  fun_induction percentDecoded cs with
  | case1 => rw [percentEncode, List.flatMap_nil, percentDecoded]
  | case2 c rest byte hbyte ih =>
    -- An escape stays as it is.
    obtain ⟨rfl, a, b, after, rfl, ha, hb⟩ := exists_of_escape? hbyte
    have hescape := h.escape?_percentEncode '%' (a :: b :: after)
    rw [hbyte] at hescape
    rw [percentEncode_cons, h.percent, if_neg Bool.false_ne_true, List.singleton_append,
      percentDecoded, hescape]
    rw [percentEncode_cons, percentEncode_cons, h.digit ha, h.digit hb]
    simpa using ih
  | case3 c rest hnone ih =>
    rw [percentEncode_cons]
    cases hc : escaped c with
    | true => rw [if_pos rfl, percentDecoded_percentChar, ih]
    | false =>
      rw [if_neg Bool.false_ne_true, List.singleton_append, percentDecoded,
        h.escape?_percentEncode, hnone, ih]

end InventorySync.Text
