import InventorySync.Proofs.NumberText

/-!
# The compact text of a value determines the value

Every writer puts a text in front of what follows, so each statement is about a text together with
its rest: the value and the rest are both determined. Strings end at their quote and the other
values at their last character; only numbers end where something else than a number goes on, which
is what `Delimited` asks of the rest.

## Key results

- `stringOnto_split`, `number_split`: strings and numbers with what follows them
- `onto_split`: values, by mutual induction with the items of arrays and the members of objects
- `compact_injective`: values with one compact text are equal
-/

namespace InventorySync.Json

/-! ## Strings -/

namespace Reader

theorem hexValue?_digitChar : ∀ n < 16, hexValue? (Nat.digitChar n) = some n := by decide

theorem byteCount_controlDigits :
    ∀ n < 32, byteCount ['0', '0', Nat.digitChar (n / 16), Nat.digitChar (n % 16)] = 4 := by decide

theorem hexEscape_low {a b : Char} {x y : Nat} (ha : hexValue? a = some x)
    (hb : hexValue? b = some y) (hcount : byteCount ['0', '0', a, b] = 4) (rest : List Char) :
    hexEscape ('0' :: '0' :: a :: b :: rest) = .ok (x * 16 + y, rest) := by
  have hzero : hexValue? '0' = some 0 := by decide
  have htake : ('0' :: '0' :: a :: b :: rest).take 4 = ['0', '0', a, b] := rfl
  have hvalue : ((0 * 16 + 0) * 16 + x) * 16 + y = x * 16 + y := by omega
  rw [hexEscape, htake, hcount, if_neg (Nat.lt_irrefl 4)]
  simp only [hzero, ha, hb, hvalue]

/-- `unicodeEscape` reads the digits that `controlDigits` writes as the control. -/
theorem unicodeEscape_control {c : Char} (hc : c.toNat < 32) (rest : List Char) :
    unicodeEscape ('0' :: '0' :: (controlDigits c ++ rest)) = .ok (c, rest) := by
  have hhex := hexEscape_low (hexValue?_digitChar (c.toNat / 16) (by omega))
    (hexValue?_digitChar (c.toNat % 16) (by omega)) (byteCount_controlDigits c.toNat hc) rest
  rw [Nat.div_add_mod'] at hhex
  have hplain : c.toNat < 0xD800 ∨ 0xDFFF < c.toNat := by omega
  show (hexEscape _).bind _ = _
  simp only [controlDigits, List.cons_append, List.nil_append, hhex, Except.bind, if_pos hplain,
    pure, Except.pure, Char.ofNat_toNat]

/-- `stringBody` reads one character from what `escapeChar` writes for it. -/
theorem stringBody_escapeChar (c : Char) (fuel : Nat) (done rest : List Char) :
    stringBody (fuel + 1) done (escapeChar c ++ rest) = stringBody fuel (c :: done) rest := by
  unfold escapeChar
  -- One case for each rule of the writer, in its order.
  split
  case isTrue h => subst h; simp [stringBody]
  split
  case isTrue h => subst h; simp [stringBody]
  split
  case isTrue h => subst h; simp [stringBody]
  split
  case isTrue h => subst h; simp [stringBody]
  split
  case isTrue h => subst h; simp [stringBody]
  split
  case isTrue h => subst h; simp [stringBody]
  split
  case isTrue h => subst h; simp [stringBody]
  split
  case isTrue hcontrol =>
    simp [stringBody, unicodeEscape_control hcontrol]
  case isFalse hquote hbackslash _ _ _ _ _ hraw =>
    simp [stringBody, hquote, hbackslash, hraw]

/-- `stringBody` reads what `escapeChar` writes for a whole string, up to the closing quote. -/
theorem stringBody_flatMap (cs : List Char) (fuel : Nat) (done rest : List Char) :
    stringBody (cs.length + 1 + fuel) done (cs.flatMap escapeChar ++ '"' :: rest) =
      .ok (String.ofList (done.reverse ++ cs), rest) := by
  induction cs generalizing done with
  | nil => simp [Nat.add_comm 1 fuel, stringBody]
  | cons c cs ih =>
    have hfuel : (c :: cs).length + 1 + fuel = cs.length + 1 + fuel + 1 := by
      rw [List.length_cons]
      omega
    rw [hfuel, List.flatMap_cons, List.append_assoc, stringBody_escapeChar, ih,
      List.reverse_cons, List.append_assoc, List.singleton_append]

end Reader

/-- `stringOnto` determines the string, and where it ends. -/
theorem stringOnto_split {s t : String} {r q : List Char} (h : stringOnto s r = stringOnto t q) :
    s = t ∧ r = q := by
  have hbody := (List.cons.inj h).2
  have hs := Reader.stringBody_flatMap s.toList t.toList.length [] r
  have ht := Reader.stringBody_flatMap t.toList s.toList.length [] q
  rw [hbody, Nat.add_right_comm, Nat.add_comm s.toList.length, Nat.add_right_comm, ht] at hs
  obtain ⟨hstring, hrest⟩ := Prod.mk.inj (Except.ok.inj hs)
  simp only [List.reverse_nil, List.nil_append, String.ofList_toList] at hstring
  exact ⟨hstring.symm, hrest.symm⟩

/-! ## Numbers -/

/-- No number goes on in the text. -/
def Delimited (r : List Char) : Prop := ∀ c ∈ r.head?, numberChar c = false

theorem delimited_nil : Delimited [] := by simp [Delimited]

theorem delimited_cons {c : Char} {r : List Char} (h : numberChar c = false) :
    Delimited (c :: r) := by
  simpa [Delimited] using h

theorem takeWhile_delimited {r : List Char} (hr : Delimited r) : r.takeWhile numberChar = [] := by
  cases r with
  | nil => rfl
  | cons c r => simp [hr c rfl]

/-- The `text` of a number, before something `Delimited`, determines the number and where it ends.
-/
theorem number_split {m n : Number} {r q : List Char} (hr : Delimited r) (hq : Delimited q)
    (h : m.text ++ r = n.text ++ q) : m = n ∧ r = q := by
  have hfront := congrArg (List.takeWhile numberChar) h
  rw [List.takeWhile_append_of_pos fun _ => Number.numberChar_of_mem_text,
    List.takeWhile_append_of_pos fun _ => Number.numberChar_of_mem_text,
    takeWhile_delimited hr, takeWhile_delimited hq, List.append_nil, List.append_nil] at hfront
  rw [hfront] at h
  exact ⟨Number.text_injective hfront, List.append_cancel_left h⟩

/-! ## Values -/

/-- The first character of a value's text; a digit stands for all that numbers begin with. -/
def mark : Json → Char
  | .null => 'n'
  | .bool true => 't'
  | .bool false => 'f'
  | .number _ => '0'
  | .string _ => '"'
  | .array _ => '['
  | .object _ => '\x7b'

/-- The mark of a text. -/
def markOf (cs : List Char) : Option Char :=
  cs.head?.map fun c => if numberChar c then '0' else c

theorem markOf_onto (v : Json) (r : List Char) : markOf (v.onto r) = some v.mark := by
  cases v with
  | null => rfl
  | bool b => cases b <;> rfl
  | string s => rfl
  | array vs => cases vs <;> rfl
  | object ms => cases ms <;> rfl
  | number n =>
    cases htext : n.text with
    | nil => exact absurd htext n.text_ne_nil
    | cons c cs =>
      have hc : numberChar c = true := n.numberChar_of_mem_text (by rw [htext]; exact .head _)
      simp [onto, htext, markOf, hc, mark]

/-- Two values of one kind, booleans and null being equal then; what the first character of `onto`
tells. -/
inductive Alike : Json → Json → Prop
  | null : Alike .null .null
  | bool (b : Bool) : Alike (.bool b) (.bool b)
  | number (m n : Number) : Alike (.number m) (.number n)
  | string (s t : String) : Alike (.string s) (.string t)
  | array (xs ys : List Json) : Alike (.array xs) (.array ys)
  | object (xs ys : Members) : Alike (.object xs) (.object ys)

theorem alike_of_mark_eq {a b : Json} (h : a.mark = b.mark) : Alike a b := by
  cases a with
  | bool x =>
    cases b with
    | bool y => cases x <;> cases y <;> first | exact .bool _ | cases h
    | _ => cases x <;> cases h
  | _ =>
    cases b with
    | bool y => cases y <;> cases h
    | _ => first | constructor | cases h

/-- Values with equal texts by `onto` are `Alike`. -/
theorem alike_of_onto_eq {a b : Json} {r q : List Char} (h : a.onto r = b.onto q) : Alike a b := by
  have hmark := congrArg markOf h
  rw [markOf_onto, markOf_onto] at hmark
  exact alike_of_mark_eq (Option.some.inj hmark)

theorem onto_ne_bracket (v : Json) (r q : List Char) : v.onto r ≠ ']' :: q := by
  intro h
  have hmark := congrArg markOf h
  rw [markOf_onto] at hmark
  have hv : v.mark = ']' := Option.some.inj hmark
  cases v with
  | bool b => cases b <;> cases hv
  | _ => cases hv

theorem delimited_itemsOnto (vs : List Json) (r : List Char) :
    Delimited (itemsOnto vs (']' :: r)) := by
  cases vs <;> exact delimited_cons rfl

theorem delimited_membersOnto (ms : Members) (r : List Char) :
    Delimited (membersOnto ms ('\x7d' :: r)) := by
  cases ms <;> exact delimited_cons rfl

mutual

/-- `onto`, before something `Delimited`, determines the value and where it ends. -/
theorem onto_split : ∀ (a b : Json) {r q : List Char}, Delimited r → Delimited q →
    a.onto r = b.onto q → a = b ∧ r = q
  | a, b, r, q, hr, hq, h =>
    match a, b, alike_of_onto_eq h with
    | _, _, .null => ⟨rfl, by simpa [onto] using h⟩
    | _, _, .bool true => ⟨rfl, by simpa [onto] using h⟩
    | _, _, .bool false => ⟨rfl, by simpa [onto] using h⟩
    | _, _, .number m n => by
      obtain ⟨rfl, hrest⟩ := number_split hr hq h
      exact ⟨rfl, hrest⟩
    | _, _, .string s t => by
      obtain ⟨rfl, hrest⟩ := stringOnto_split h
      exact ⟨rfl, hrest⟩
    | .array [], .array [], .array _ _ => ⟨rfl, by simpa [onto] using h⟩
    | .array [], .array (y :: ys), .array _ _ =>
      absurd (List.cons.inj h).2.symm (onto_ne_bracket y _ _)
    | .array (x :: xs), .array [], .array _ _ =>
      absurd (List.cons.inj h).2 (onto_ne_bracket x _ _)
    | .array (x :: xs), .array (y :: ys), .array _ _ => by
      obtain ⟨rfl, hitems⟩ := onto_split x y (delimited_itemsOnto xs r) (delimited_itemsOnto ys q)
        (List.cons.inj h).2
      obtain ⟨rfl, hrest⟩ := itemsOnto_split xs ys hitems
      exact ⟨rfl, hrest⟩
    | .object [], .object [], .object _ _ => ⟨rfl, by simpa [onto] using h⟩
    | .object [], .object ((l, y) :: ys), .object _ _ => by cases h
    | .object ((k, x) :: xs), .object [], .object _ _ => by cases h
    | .object ((k, x) :: xs), .object ((l, y) :: ys), .object _ _ => by
      obtain ⟨rfl, hvalue⟩ := stringOnto_split (List.cons.inj h).2
      obtain ⟨rfl, hmembers⟩ := onto_split x y (delimited_membersOnto xs r)
        (delimited_membersOnto ys q) (List.cons.inj hvalue).2
      obtain ⟨rfl, hrest⟩ := membersOnto_split xs ys hmembers
      exact ⟨rfl, hrest⟩

/-- `itemsOnto` determines the items of an array up to its bracket. -/
theorem itemsOnto_split : ∀ (xs ys : List Json) {r q : List Char},
    itemsOnto xs (']' :: r) = itemsOnto ys (']' :: q) → xs = ys ∧ r = q
  | [], [], _, _, h => ⟨rfl, (List.cons.inj h).2⟩
  | [], _ :: _, _, _, h => by cases h
  | _ :: _, [], _, _, h => by cases h
  | x :: xs, y :: ys, r, q, h => by
    obtain ⟨rfl, hitems⟩ := onto_split x y (delimited_itemsOnto xs r) (delimited_itemsOnto ys q)
      (List.cons.inj h).2
    obtain ⟨rfl, hrest⟩ := itemsOnto_split xs ys hitems
    exact ⟨rfl, hrest⟩

/-- `membersOnto` determines the members of an object up to its brace. -/
theorem membersOnto_split : ∀ (xs ys : Members) {r q : List Char},
    membersOnto xs ('\x7d' :: r) = membersOnto ys ('\x7d' :: q) → xs = ys ∧ r = q
  | [], [], _, _, h => ⟨rfl, (List.cons.inj h).2⟩
  | [], _ :: _, _, _, h => by cases h
  | _ :: _, [], _, _, h => by cases h
  | (k, x) :: xs, (l, y) :: ys, r, q, h => by
    obtain ⟨rfl, hvalue⟩ := stringOnto_split (List.cons.inj h).2
    obtain ⟨rfl, hmembers⟩ := onto_split x y (delimited_membersOnto xs r)
      (delimited_membersOnto ys q) (List.cons.inj hvalue).2
    obtain ⟨rfl, hrest⟩ := membersOnto_split xs ys hmembers
    exact ⟨rfl, hrest⟩

end

/-- `compact` determines the value. -/
theorem compact_injective {a b : Json} (h : a.compact = b.compact) : a = b :=
  (onto_split a b delimited_nil delimited_nil (String.ofList_injective h)).1

end InventorySync.Json
