import InventorySync.Proofs.Lists
import InventorySync.Proofs.PercentDecoding
import InventorySync.Remote.Http
import Mathlib.Data.List.TakeWhile

/-!
# Where changes of a record are sent

An identifier is pasted into an address, which is then read like any other: cut into segments, dots
resolved, a fragment dropped, a query set apart. What an address says is followed through reading
and writing, up to the last segment of the target; it stands for the identifier exactly if nothing
in the identifier was read as anything but itself.

## Key results

- `Address.isDots_of_mem_resolve`, `Address.read?_eq_none_iff`: what reading leaves of a path, and
  the texts that it refuses
- `Address.target_of_plain`: where the request for a plain identifier goes
- `Address.plain_of_isPlaceOf`: no other identifier has its request go to its place
- `HttpInventory.sent_to_own_place_iff`: the requests that go to the places of their identifiers,
  and that different plain identifiers have different places
-/

namespace InventorySync

open Text (percentDecoded percentEncode utf8)

namespace Address

/-! ## The parts of a path -/

theorem cutSegments_ne_nil (cs : List Char) : cutSegments cs ≠ [] := by
  cases cs with
  | nil => nofun
  | cons c rest =>
    unfold cutSegments
    split
    · nofun
    · split <;> nofun

theorem cutSegments_cons_of_not {c : Char} (hc : isSeparator c = false) {rest part : List Char}
    {parts : List (List Char)} (h : cutSegments rest = part :: parts) :
    cutSegments (c :: rest) = (c :: part) :: parts := by
  rw [cutSegments, hc, h]
  rfl

/-- A separator ends one part of `cutSegments` and begins another. -/
theorem cutSegments_append {sep : Char} (hsep : isSeparator sep = true) (before rest : List Char) :
    cutSegments (before ++ sep :: rest) = cutSegments before ++ cutSegments rest := by
  induction before with
  | nil => simp [cutSegments, hsep]
  | cons c before ih =>
    cases hc : isSeparator c with
    | true => simp [cutSegments, hc, ih]
    | false =>
      obtain ⟨part, parts, hparts⟩ := List.exists_cons_of_ne_nil (cutSegments_ne_nil before)
      rw [hparts, List.cons_append] at ih
      rw [List.cons_append, cutSegments_cons_of_not hc ih, cutSegments_cons_of_not hc hparts,
        List.cons_append]

theorem cutSegments_of_no_separator {cs : List Char} (h : ∀ c ∈ cs, isSeparator c = false) :
    cutSegments cs = [cs] := by
  induction cs with
  | nil => rfl
  | cons c cs ih =>
    obtain ⟨hc, hcs⟩ := List.forall_mem_cons.mp h
    exact cutSegments_cons_of_not hc (ih hcs)

/-- The parts of `cutSegments` hold no separators and are parts of the text. -/
theorem of_mem_cutSegments {cs part : List Char} (h : part ∈ cutSegments cs) :
    part.Sublist cs ∧ ∀ c ∈ part, isSeparator c = false := by
  induction cs generalizing part with
  | nil =>
    obtain rfl := List.mem_singleton.mp h
    exact ⟨List.nil_sublist _, nofun⟩
  | cons c cs ih =>
    cases hc : isSeparator c with
    | true =>
      rw [cutSegments, if_pos hc] at h
      rcases List.mem_cons.mp h with rfl | h
      · exact ⟨List.nil_sublist _, nofun⟩
      · exact ⟨(ih h).1.cons c, (ih h).2⟩
    | false =>
      obtain ⟨first, parts, hparts⟩ := List.exists_cons_of_ne_nil (cutSegments_ne_nil cs)
      rw [cutSegments_cons_of_not hc hparts] at h
      rcases List.mem_cons.mp h with rfl | h
      · obtain ⟨hsub, hno⟩ := ih (hparts ▸ List.mem_cons_self)
        exact ⟨hsub.cons_cons c, List.forall_mem_cons.mpr ⟨hc, hno⟩⟩
      · obtain ⟨hsub, hno⟩ := ih (hparts ▸ List.mem_cons_of_mem _ h)
        exact ⟨hsub.cons c, hno⟩

/-! ## Dot segments -/

/-- Whether a part stands for no segment of its own. -/
def isDots (part : List Char) : Bool := dots? part = some 1 || dots? part = some 2

/-- The segments before, last first, after a part with others behind it. -/
def descend (done : List (List Char)) (part : List Char) : List (List Char) :=
  match dots? part with
  | some 1 => done
  | some 2 => done.tail
  | _ => part :: done

/-- The parts before the last ones are taken by `descend`: only the last of them is told from the
others by `resolve`. -/
theorem resolve_append (done : List (List Char)) (parts : List (List Char))
    {last : List (List Char)} (hne : last ≠ []) :
    resolve done (parts ++ last) = resolve (parts.foldl descend done) last := by
  induction parts generalizing done with
  | nil => rfl
  | cons part parts ih =>
    have hbehind : (parts ++ last).isEmpty = false := by simp [hne]
    rw [List.cons_append, resolve, List.foldl_cons, ← ih]
    simp only [hbehind, Bool.false_eq_true, false_and, if_false]
    rfl

/-- The last part is the last segment for `resolve`, unless it stands for none. -/
theorem resolve_singleton (done : List (List Char)) (part : List Char) :
    resolve done [part] = if isDots part then ([] :: descend done part).reverse
      else (part :: done).reverse := by
  unfold isDots descend
  match hdots : dots? part with
  | none | some 0 | some 1 | some 2 | some (n + 3) => simp [resolve, hdots]

theorem descend_of_not_dots {part : List Char} (h : isDots part = false)
    (done : List (List Char)) : descend done part = part :: done := by
  unfold isDots at h
  unfold descend
  match hdots : dots? part with
  | none | some 0 | some (n + 3) => rfl
  | some 1 | some 2 => simp [hdots] at h

theorem getLast?_resolve (done parts : List (List Char)) (last : List Char) :
    (resolve done (parts ++ [last])).getLast? = some (if isDots last then [] else last) := by
  rw [resolve_append done parts (List.cons_ne_nil last []), resolve_singleton]
  split <;> simp

theorem isDots_of_mem_descend {done : List (List Char)} (hdone : ∀ p ∈ done, isDots p = false)
    {part p : List Char} (h : p ∈ descend done part) : isDots p = false := by
  cases hpart : isDots part with
  | false =>
    rw [descend_of_not_dots hpart] at h
    obtain rfl | h := List.mem_cons.mp h
    · exact hpart
    · exact hdone p h
  | true =>
    unfold descend at h
    split at h
    · exact hdone p h
    · exact hdone p (List.mem_of_mem_tail h)
    · next hone htwo =>
      have hdots : dots? part = some 1 ∨ dots? part = some 2 := by simpa [isDots] using hpart
      exact (hdots.elim hone htwo).elim

/-- Once a path is resolved by `resolve`, no dot segment is left in it. -/
theorem isDots_of_mem_resolve {done parts : List (List Char)}
    (hdone : ∀ p ∈ done, isDots p = false) {p : List Char} (h : p ∈ resolve done parts) :
    isDots p = false := by
  obtain rfl | ⟨front, last, rfl⟩ := List.eq_nil_or_concat parts
  · exact hdone p (List.mem_reverse.mp h)
  · have hfront : ∀ q ∈ front.foldl descend done, isDots q = false := by
      clear h
      induction front generalizing done with
      | nil => exact hdone
      | cons part front ih => exact ih fun q hq => isDots_of_mem_descend hdone hq
    rw [List.concat_eq_append, resolve_append done front (List.cons_ne_nil last []),
      resolve_singleton] at h
    split at h
    next =>
      obtain rfl | h := List.mem_cons.mp (List.mem_reverse.mp h)
      · rfl
      · exact isDots_of_mem_descend hfront h
    next hlast =>
      obtain rfl | h := List.mem_cons.mp (List.mem_reverse.mp h)
      · exact Bool.eq_false_iff.mpr hlast
      · exact hfront p h

example : (read? "/v1/../a/%2E/b/..").map target = some "/a/" := by decide +kernel

/-! ## The text of a path -/

/-- The characters that are not dropped. -/
def kept (cs : List Char) : List Char := cs.filter fun c => !isDropped c

/-- What is left of a text without what is dropped, a fragment and a query. -/
def pathPart (cs : List Char) : List Char :=
  ((kept (trimEnd cs)).takeWhile (· ≠ '#')).takeWhile (· ≠ '?')

/-- The text after the host has neither a query nor a fragment. -/
def IsBarePath (cs : List Char) : Prop := '?' ∉ cs ∧ '#' ∉ cs

instance (cs : List Char) : Decidable (IsBarePath cs) :=
  inferInstanceAs (Decidable ('?' ∉ cs ∧ '#' ∉ cs))

theorem trimEnd_append_cons {c : Char} (hc : 0x20 < c.toNat) (before rest : List Char) :
    trimEnd (before ++ c :: rest) = before ++ c :: trimEnd rest := by
  have hkept : (decide (c.toNat ≤ 0x20)) = false := by simpa using hc
  unfold trimEnd
  rw [List.reverse_append, List.reverse_cons, List.append_assoc, List.singleton_append,
    dropWhile_append_cons (p := fun c : Char => decide (c.toNat ≤ 0x20)) hkept]
  simp

theorem trimEnd_sublist (cs : List Char) : (trimEnd cs).Sublist cs := by
  have h : ((cs.reverse.dropWhile fun c => decide (c.toNat ≤ 0x20)).reverse).Sublist
      cs.reverse.reverse := (List.dropWhile_sublist _).reverse
  rwa [List.reverse_reverse] at h

theorem kept_append (xs ys : List Char) : kept (xs ++ ys) = kept xs ++ kept ys :=
  List.filter_append ..

/-- Behind a path that `IsBarePath` only what follows is cut by `pathPart`. -/
theorem pathPart_append {front : List Char} (hfront : IsBarePath front) (rest : List Char) :
    pathPart (front ++ '/' :: rest) = kept front ++ '/' :: pathPart rest := by
  have hslash : ∀ xs, kept ('/' :: xs) = '/' :: kept xs := fun _ => rfl
  have hmem : ∀ c ∈ kept front, c ∈ front := fun c hc => List.mem_of_mem_filter hc
  have hfragment : ∀ c ∈ kept front, decide (c ≠ '#') = true := by
    intro c hc
    rw [decide_eq_true_eq]
    exact ne_of_mem_of_not_mem (hmem c hc) hfront.2
  have hquery : ∀ c ∈ kept front, decide (c ≠ '?') = true := by
    intro c hc
    rw [decide_eq_true_eq]
    exact ne_of_mem_of_not_mem (hmem c hc) hfront.1
  rw [pathPart, trimEnd_append_cons (by decide), kept_append, hslash,
    List.takeWhile_append_of_pos hfragment, List.takeWhile_cons_of_pos (by decide),
    List.takeWhile_append_of_pos hquery, List.takeWhile_cons_of_pos (by decide)]
  rfl

theorem pathPart_sublist (cs : List Char) : (pathPart cs).Sublist (trimEnd cs) :=
  (List.takeWhile_sublist _).trans ((List.takeWhile_sublist _).trans List.filter_sublist)

theorem of_mem_pathPart {cs : List Char} {c : Char} (h : c ∈ pathPart cs) :
    c ≠ '?' ∧ c ≠ '#' ∧ isDropped c = false := by
  have hquery := List.mem_takeWhile_imp h
  have hmem := (List.takeWhile_sublist _).subset h
  have hfragment := List.mem_takeWhile_imp hmem
  have hkept := List.of_mem_filter ((List.takeWhile_sublist _).subset hmem)
  exact ⟨of_decide_eq_true hquery, of_decide_eq_true hfragment, by simpa using hkept⟩

theorem pathPart_of_forall_mem {cs : List Char} (htrimmed : trimEnd cs = cs)
    (hall : ∀ c ∈ cs, c ≠ '?' ∧ c ≠ '#' ∧ isDropped c = false) : pathPart cs = cs := by
  have hkept : kept cs = cs := List.filter_eq_self.mpr fun c hc => by simp [(hall c hc).2.2]
  rw [pathPart, htrimmed, hkept, List.takeWhile_eq_self_iff.mpr, List.takeWhile_eq_self_iff.mpr]
  · exact fun c hc => decide_eq_true (hall c hc).2.1
  · rw [List.takeWhile_eq_self_iff.mpr fun c hc => decide_eq_true (hall c hc).2.1]
    exact fun c hc => decide_eq_true (hall c hc).1

/-- The parts of a path before a slash; none if its text goes on with the host. -/
def partsOf? (front : List Char) : Option (List (List Char)) :=
  match kept front with
  | [] => some []
  | c :: rest => if isSeparator c then some (cutSegments rest) else none

/-- A segment as it is written. -/
def written (part : List Char) : String := String.ofList (percentEncode isEscapedInPath part)

theorem readPath_append (front rest : List Char) :
    readPath (kept front ++ '/' :: rest) = (partsOf? front).map fun parts =>
      (resolve [] (parts ++ cutSegments rest)).map written := by
  unfold partsOf?
  cases kept front with
  | nil => rfl
  | cons c front =>
    rw [List.cons_append, readPath]
    cases hc : isSeparator c with
    | true =>
      rw [cutSegments_append (by decide)]
      simp only [if_true, hc]
      rfl
    | false => simp [hc]

/-- A text without question marks is read by `read?` as an address without a query. -/
theorem exists_query (text : String) : ∃ query : Option String,
    read? text = (readPath (pathPart text.toList)).map (fun segments => ⟨segments, query⟩) ∧
      ('?' ∉ text.toList → query = none) := by
  refine ⟨_, rfl, fun hnone => ?_⟩
  have hsub : ((kept (trimEnd text.toList)).takeWhile (· ≠ '#')).Sublist text.toList :=
    (List.takeWhile_sublist _).trans (List.filter_sublist.trans (trimEnd_sublist _))
  have hall : ((kept (trimEnd text.toList)).takeWhile (· ≠ '#')).takeWhile (· ≠ '?') =
      (kept (trimEnd text.toList)).takeWhile (· ≠ '#') := by
    rw [List.takeWhile_eq_self_iff]
    exact fun c hc => decide_eq_true (ne_of_mem_of_not_mem (hsub.subset hc) hnone)
  simp only [kept] at hall
  rw [hall, List.drop_length]

/-- A text whose `pathPart` begins with anything but a separator goes on with the host and is
refused by `read?`. -/
theorem read?_eq_none_iff {text : String} : read? text = none ↔
    ∃ c ∈ (pathPart text.toList).head?, isSeparator c = false := by
  obtain ⟨query, hread, -⟩ := exists_query text
  rw [hread, Option.map_eq_none_iff]
  cases pathPart text.toList with
  | nil => simp [readPath]
  | cons c rest =>
    rw [readPath]
    cases hc : isSeparator c <;> simp [hc]

example : read? "x/y" = none := by decide +kernel

/-! ## The text of a target -/

/-- The segments, each after a slash. -/
def pathText (segments : List String) : List Char := segments.flatMap fun part => '/' :: part.toList

theorem pathText_append (before after : List String) :
    pathText (before ++ after) = pathText before ++ pathText after := List.flatMap_append ..

theorem toList_target (a : Address) : a.target.toList = pathText a.segments ++
    (match a.query with
      | some query => '?' :: query.toList
      | none => []) := by
  have hjoin : (String.join (a.segments.map fun part => "/" ++ part)).toList =
      pathText a.segments := by
    simp [String.toList_join, pathText, List.flatMap_map]
  unfold target
  cases a.query <;> simp [hjoin]

open Json.Reader (hexValue?) in
/-- Digits are among the characters from `0` to `f`. -/
theorem toNat_of_hexValue? {c : Char} (h : (hexValue? c).isSome = true) :
    0x30 ≤ c.toNat ∧ c.toNat ≤ 0x66 := by
  have hval : ∀ d : Char, d.val.toNat = d.toNat := fun _ => rfl
  have hzero : '0'.toNat = 0x30 := rfl
  have hnine : '9'.toNat = 0x39 := rfl
  have hlower : 'a'.toNat = 0x61 ∧ 'f'.toNat = 0x66 := ⟨rfl, rfl⟩
  have hupper : 'A'.toNat = 0x41 ∧ 'F'.toNat = 0x46 := ⟨rfl, rfl⟩
  unfold hexValue? at h
  simp only [Char.le_def, UInt32.le_iff_toNat_le, hval] at h
  split at h
  · omega
  · split at h
    · omega
    · split at h
      · omega
      · cases h

/-- Escapes are made of characters that `isEscapedInPath` spares. -/
theorem sparesEscapes_path : Text.SparesEscapes isEscapedInPath where
  percent := by decide
  digit {c} h := by
    have hrange := toNat_of_hexValue? h
    have hsign : c ∉ [' ', '"', '<', '>', '\x60', '#', '?', '\x7b', '\x7d'] := by
      intro hmem
      simp only [List.mem_cons, List.not_mem_nil, or_false] at hmem
      rcases hmem with rfl | rfl | rfl | rfl | rfl | rfl | rfl | rfl | rfl <;> revert h <;> decide
    simp [isEscapedInPath, isForeign, hsign]
    omega

theorem percentDecoded_written (part : List Char) :
    percentDecoded (written part).toList = percentDecoded part := by
  rw [written, String.toList_ofList, sparesEscapes_path.percentDecoded_percentEncode]

open Json.Reader (hexValue?) in
/-- What `percentChar` makes of a character consists of percent signs and digits. -/
theorem of_mem_percentChar {c d : Char} (h : d ∈ Text.percentChar c) :
    d = '%' ∨ (hexValue? d).isSome = true := by
  obtain ⟨byte, -, hd⟩ := List.mem_flatMap.mp h
  simp only [Text.percentByte, List.mem_cons, List.not_mem_nil, or_false] at hd
  rcases hd with rfl | rfl | rfl
  · exact .inl rfl
  · exact .inr (by rw [Text.hexValue?_upperHexDigit]; rfl)
  · exact .inr (by rw [Text.hexValue?_upperHexDigit]; rfl)

/-- A `written` segment has no question mark, and no slash unless the part has one. -/
theorem of_mem_written {part : List Char} {d : Char} (h : d ∈ (written part).toList) :
    d ≠ '?' ∧ (d = '/' → d ∈ part) := by
  rw [written, String.toList_ofList] at h
  obtain ⟨c, hc, hd⟩ := List.mem_flatMap.mp h
  split at hd
  case isTrue =>
    rcases of_mem_percentChar hd with rfl | hdigit
    · exact ⟨by decide, nofun⟩
    · have hquery : (Json.Reader.hexValue? '?').isSome = false := by decide
      have hslash : (Json.Reader.hexValue? '/').isSome = false := by decide
      refine ⟨?_, ?_⟩
      · rintro rfl
        rw [hquery] at hdigit
        cases hdigit
      · rintro rfl
        rw [hslash] at hdigit
        cases hdigit
  case isFalse hplain =>
    obtain rfl := List.mem_singleton.mp hd
    refine ⟨?_, fun _ => hc⟩
    rintro rfl
    exact hplain (by decide)

end Address

/-! ## The place of an identifier -/

/-- An identifier that can be pasted into an address: one segment, which is not resolved, with
nothing that is dropped or cut off and nothing that looks like an encoded byte. -/
structure PlainIdentifier (uid : String) : Prop where
  allowed : ∀ c ∈ uid.toList, Address.isSeparator c = false ∧ c ≠ '?' ∧ c ≠ '#' ∧
    Address.isDropped c = false
  trimmed : Address.trimEnd uid.toList = uid.toList
  proper : Address.isDots uid.toList = false
  unescaped : Text.hasEscape uid.toList = false

/-- Whether an identifier is plain. -/
def isPlain (uid : String) : Bool :=
  (uid.toList.all fun c =>
      !Address.isSeparator c && c != '?' && c != '#' && !Address.isDropped c) &&
    Address.trimEnd uid.toList == uid.toList && !Address.isDots uid.toList &&
    !Text.hasEscape uid.toList

theorem isPlain_iff {uid : String} : isPlain uid = true ↔ PlainIdentifier uid := by
  simp only [isPlain, Bool.and_eq_true, List.all_eq_true, bne_iff_ne, beq_iff_eq, Bool.not_eq_true',
    and_assoc]
  exact ⟨fun h => ⟨h.1, h.2.1, h.2.2.1, h.2.2.2⟩,
    fun h => ⟨h.allowed, h.trimmed, h.proper, h.unescaped⟩⟩

instance (uid : String) : Decidable (PlainIdentifier uid) := decidable_of_iff _ isPlain_iff

/-- The target is the place of an identifier in a collection: one more segment that says so, and one
that stands for the identifier. -/
def IsPlaceOf (collection target uid : String) : Prop :=
  ∃ segment : String, target = collection ++ "/uid/" ++ segment ∧ '/' ∉ segment.toList ∧
    '?' ∉ segment.toList ∧ percentDecoded segment.toList = utf8 uid.toList

namespace Address

/-- An identifier that is the last part `cutSegments` finds in it is plain but for dots and escapes.
-/
theorem allowed_of_mem_cutSegments {cs : List Char} (h : cs ∈ cutSegments (pathPart cs)) :
    (∀ c ∈ cs, isSeparator c = false ∧ c ≠ '?' ∧ c ≠ '#' ∧ isDropped c = false) ∧
      trimEnd cs = cs := by
  obtain ⟨hsub, hseparator⟩ := of_mem_cutSegments h
  have htrimmed : trimEnd cs = cs :=
    (trimEnd_sublist cs).eq_of_length_le (hsub.trans (pathPart_sublist cs)).length_le
  exact ⟨fun c hc => ⟨hseparator c hc, of_mem_pathPart (hsub.subset hc)⟩, htrimmed⟩

/-- The segments of the collection below a base that `IsBarePath`. -/
theorem segments_of_collection {base : String} (hbase : IsBarePath base.toList) {place : Address}
    (h : read? (base ++ "/v1/resources") = some place) :
    ∃ parts, partsOf? base.toList = some parts ∧ place.query = none ∧ place.segments =
      (("resources".toList :: "v1".toList :: parts.foldl descend []).reverse).map written := by
  obtain ⟨query, hread, hquery⟩ := exists_query (base ++ "/v1/resources")
  have htext : (base ++ "/v1/resources").toList = base.toList ++ '/' :: "v1/resources".toList := by
    simp
  have hpath : pathPart "v1/resources".toList = "v1/resources".toList := by decide
  have hcut : cutSegments "v1/resources".toList = ["v1".toList, "resources".toList] := by decide
  rw [hread, htext, pathPart_append hbase, hpath, readPath_append, hcut, Option.map_map] at h
  obtain ⟨parts, hparts, rfl⟩ := Option.map_eq_some_iff.mp h
  refine ⟨parts, hparts, hquery ?_, ?_⟩
  · rw [htext, List.mem_append, not_or]
    exact ⟨hbase.1, by decide⟩
  · have hresolve : resolve [] (parts ++ ["v1".toList, "resources".toList]) =
        ("resources".toList :: "v1".toList :: parts.foldl descend []).reverse := by
      have happend : parts ++ ["v1".toList, "resources".toList] =
          (parts ++ ["v1".toList]) ++ ["resources".toList] := by simp
      rw [happend, resolve_append _ _ (List.cons_ne_nil _ _), resolve_singleton,
        if_neg (by decide), List.foldl_append, List.foldl_cons, List.foldl_nil,
        descend_of_not_dots (by decide)]
    rw [Function.comp_apply, hresolve]

/-- The segments of the place of an identifier: what `resolve` makes of its parts below the
collection. -/
theorem segments_of_location (uid : String) {base : String} (hbase : IsBarePath base.toList)
    {parts : List (List Char)} (hparts : partsOf? base.toList = some parts) :
    ∃ a, read? (base ++ "/v1/resources/uid/" ++ uid) = some a ∧
      ('?' ∉ uid.toList → a.query = none) ∧ a.segments =
        (resolve ("uid".toList :: "resources".toList :: "v1".toList :: parts.foldl descend [])
          (cutSegments (pathPart uid.toList))).map written := by
  obtain ⟨query, hread, hquery⟩ := exists_query (base ++ "/v1/resources/uid/" ++ uid)
  have htext : (base ++ "/v1/resources/uid/" ++ uid).toList =
      (base.toList ++ "/v1/resources/uid".toList) ++ '/' :: uid.toList := by
    simp
  have hlit : IsBarePath "/v1/resources/uid".toList := ⟨by decide, by decide⟩
  have hfront : IsBarePath (base.toList ++ "/v1/resources/uid".toList) := by
    unfold IsBarePath at hbase hlit ⊢
    simp only [List.mem_append, not_or]
    exact ⟨⟨hbase.1, hlit.1⟩, hbase.2, hlit.2⟩
  -- The fixed parts between the base and the identifier are cut before anything of the identifier.
  have hkept : kept "/v1/resources/uid".toList = '/' :: "v1/resources/uid".toList := by decide
  have hcut : cutSegments ("v1/resources/uid".toList ++ '/' :: pathPart uid.toList) =
      "v1".toList :: "resources".toList :: "uid".toList :: cutSegments (pathPart uid.toList) := by
    rw [cutSegments_append (by decide)]
    rfl
  rw [htext, pathPart_append hfront, kept_append, hkept, List.append_assoc, List.cons_append,
    readPath_append, hparts, Option.map_some, Option.map_some, hcut] at hread
  refine ⟨_, hread, fun huid => hquery ?_, ?_⟩
  · rw [htext, List.mem_append, List.mem_cons]
    rintro (hmem | hmem | hmem)
    · exact hfront.1 hmem
    · cases hmem
    · exact huid hmem
  · -- None of them is a dot segment, so they stay in front of what the identifier is resolved to.
    have happend : parts ++ ("v1".toList :: "resources".toList :: "uid".toList ::
        cutSegments (pathPart uid.toList)) = (parts ++ ["v1".toList, "resources".toList,
          "uid".toList]) ++ cutSegments (pathPart uid.toList) := by simp
    rw [happend, resolve_append _ _ (cutSegments_ne_nil _), List.foldl_append, List.foldl_cons,
      List.foldl_cons, List.foldl_cons, List.foldl_nil, descend_of_not_dots (by decide),
      descend_of_not_dots (by decide), descend_of_not_dots (by decide)]

variable {uid : String} {root : List (List Char)} {place a : Address}

/-- The request for an identifier that is a `PlainIdentifier` goes to its own segment below the
collection. -/
theorem target_of_plain (h : PlainIdentifier uid) (hplaceQuery : place.query = none)
    (hplace : place.segments = (("resources".toList :: "v1".toList :: root).reverse).map written)
    (hquery : '?' ∉ uid.toList → a.query = none)
    (ha : a.segments = (resolve ("uid".toList :: "resources".toList :: "v1".toList :: root)
      (cutSegments (pathPart uid.toList))).map written) :
    a.target = place.target ++ "/uid/" ++ written uid.toList := by
  have hpath : pathPart uid.toList = uid.toList :=
    pathPart_of_forall_mem h.trimmed fun c hc => (h.allowed c hc).2
  have hcut : cutSegments uid.toList = [uid.toList] :=
    cutSegments_of_no_separator fun c hc => (h.allowed c hc).1
  have hsegments : a.segments = place.segments ++ ["uid", written uid.toList] := by
    have huid : written "uid".toList = "uid" := by decide
    rw [ha, hpath, hcut, resolve_singleton, if_neg (by simp [h.proper]), hplace]
    simpa using huid
  rw [← String.toList_inj, toList_target, hsegments, pathText_append,
    hquery fun hmem => (h.allowed _ hmem).2.1 rfl, List.append_nil, String.toList_append,
    String.toList_append, toList_target, hplaceQuery, List.append_nil, List.append_assoc]
  simp [pathText]

/-- What stands after the last slash of a text is one: `rest` and `rest'` agree. -/
theorem eq_of_append_slash {before before' rest rest' : List Char} (hrest : '/' ∉ rest)
    (hrest' : '/' ∉ rest') (h : before ++ '/' :: rest = before' ++ '/' :: rest') :
    rest = rest' := by
  rcases List.append_eq_append_iff.mp h with ⟨more, -, hmore⟩ | ⟨more, -, hmore⟩
  · cases more with
    | nil => exact (List.cons.inj hmore).2
    | cons c more => exact absurd (by rw [(List.cons.inj hmore).2]; simp) hrest
  · cases more with
    | nil => exact (List.cons.inj hmore).2.symm
    | cons c more => exact absurd (by rw [(List.cons.inj hmore).2]; simp) hrest'

theorem mark_not_mem_pathText (parts : List (List Char)) : '?' ∉ pathText (parts.map written) := by
  intro hmem
  obtain ⟨segment, hsegment, hmem⟩ := List.mem_flatMap.mp hmem
  obtain ⟨part, -, rfl⟩ := List.mem_map.mp hsegment
  rcases List.mem_cons.mp hmem with hmem | hmem
  · cases hmem
  · exact (of_mem_written hmem).1 rfl

/-- The last segment of the place of an identifier comes from one of the parts of `cutSegments`. -/
theorem exists_last_segment (done : List (List Char)) (uid : List Char) :
    ∃ before last x, resolve done (cutSegments (pathPart uid)) = before ++ [x] ∧
      last ∈ cutSegments (pathPart uid) ∧ x = if isDots last then [] else last := by
  obtain ⟨before, last, hparts⟩ :=
    (List.eq_nil_or_concat (cutSegments (pathPart uid))).resolve_left (cutSegments_ne_nil _)
  have hlast := getLast?_resolve done before last
  rw [List.concat_eq_append] at hparts
  rw [← hparts] at hlast
  obtain ⟨segments, hsegments⟩ := List.getLast?_eq_some_iff.mp hlast
  exact ⟨segments, last, _, hsegments, by rw [hparts]; simp, rfl⟩

/-- A target without a question mark ends with the last segment, as `written`. -/
theorem written_of_target {front : List Char} {segment : String} {before : List (List Char)}
    {x : List Char} (htarget : a.target.toList = front ++ '/' :: segment.toList)
    (hfront : '?' ∉ front) (hmark : '?' ∉ segment.toList) (hslash : '/' ∉ segment.toList)
    (ha : a.segments = (before ++ [x]).map written) (hx : '/' ∉ x) :
    (written x).toList = segment.toList := by
  have hquery : a.query = none := by
    cases hquery : a.query with
    | none => rfl
    | some query =>
      have hmem : '?' ∈ a.target.toList := by
        rw [toList_target, hquery]
        simp
      rw [htarget, List.mem_append, List.mem_cons] at hmem
      rcases hmem with hmem | hmem | hmem
      · exact absurd hmem hfront
      · cases hmem
      · exact absurd hmem hmark
  have hone : pathText [written x] = '/' :: (written x).toList := by simp [pathText]
  rw [toList_target, hquery, List.append_nil, ha, List.map_append, pathText_append,
    List.map_singleton, hone] at htarget
  exact eq_of_append_slash (fun hmem => hx ((of_mem_written hmem).2 rfl)) hslash htarget

/-- An identifier that a part of it stands for, by `percentDecoded`, is a `PlainIdentifier`. -/
theorem plain_of_part {last x : List Char} (hlast : last ∈ cutSegments (pathPart uid.toList))
    (hx : x = if isDots last then [] else last) (hdecoded : percentDecoded x = utf8 uid.toList) :
    PlainIdentifier uid := by
  have hsub : last.Sublist uid.toList :=
    (of_mem_cutSegments hlast).1.trans ((pathPart_sublist _).trans (trimEnd_sublist _))
  have hxlast : x.Sublist last := by
    rw [hx]
    split
    · exact List.nil_sublist _
    · exact List.Sublist.refl _
  -- It stands for no more bytes than it has, so it is all of the identifier.
  have hall : x = uid.toList := by
    refine Text.eq_of_sublist_of_byteCount_le (hxlast.trans hsub) ?_
    rw [← Text.length_utf8, ← hdecoded]
    exact Text.length_percentDecoded_le x
  have hproper : isDots last = false := by
    cases hdots : isDots last with
    | false => rfl
    | true =>
      -- An empty identifier has no dots.
      rw [hdots, if_pos rfl] at hx
      rw [← hall, hx, List.sublist_nil] at hsub
      rw [hsub] at hdots
      cases hdots
  rw [hproper, if_neg Bool.false_ne_true] at hx
  obtain rfl : last = uid.toList := hx.symm.trans hall
  obtain ⟨hallowed, htrimmed⟩ := allowed_of_mem_cutSegments hlast
  rw [hall] at hdecoded
  exact ⟨hallowed, htrimmed, hproper, Text.percentDecoded_eq_utf8_iff.mp hdecoded⟩

/-- Only a `PlainIdentifier` has its request go to its place. -/
theorem plain_of_isPlaceOf (hplaceQuery : place.query = none)
    (hplace : place.segments = (("resources".toList :: "v1".toList :: root).reverse).map written)
    (ha : a.segments = (resolve ("uid".toList :: "resources".toList :: "v1".toList :: root)
      (cutSegments (pathPart uid.toList))).map written)
    (h : IsPlaceOf place.target a.target uid) : PlainIdentifier uid := by
  obtain ⟨segment, htarget, hslash, hmark, hdecoded⟩ := h
  have htoList : a.target.toList =
      (pathText place.segments ++ "/uid".toList) ++ '/' :: segment.toList := by
    rw [htarget, String.toList_append, String.toList_append, toList_target, hplaceQuery]
    simp
  have hfront : '?' ∉ pathText place.segments ++ "/uid".toList := by
    rw [hplace, List.mem_append, not_or]
    exact ⟨mark_not_mem_pathText _, by decide⟩
  obtain ⟨before, last, x, hresolve, hlast, hx⟩ := exists_last_segment
    ("uid".toList :: "resources".toList :: "v1".toList :: root) uid.toList
  have hseparator : '/' ∉ x := by
    rw [hx]
    split
    · nofun
    · exact fun hmem => Bool.noConfusion ((of_mem_cutSegments hlast).2 _ hmem)
  rw [hresolve] at ha
  refine plain_of_part hlast hx ?_
  rw [← hdecoded, ← written_of_target htoList hfront hmark hslash ha hseparator,
    percentDecoded_written]

end Address

namespace HttpInventory

variable {h : HttpInventory} {place : Address} {key : Option String}

/-- The request `change?` makes for a record that is known. -/
theorem exists_request (hbase : Address.IsBarePath h.base.toList)
    (hplace : Address.read? h.collection = some place) (hkey : h.header? = some key)
    {u : ResourceUpdate} (hu : u.action ≠ .create) :
    ∃ a, h.change? u = some ⟨methodOf u.action, Address.target a, key, some u.toJson⟩ ∧
      (IsPlaceOf place.target a.target u.uid ↔ PlainIdentifier u.uid) ∧
      (PlainIdentifier u.uid →
        a.target = place.target ++ "/uid/" ++ Address.written u.uid.toList) := by
  obtain ⟨parts, hparts, hplaceQuery, hsegments⟩ := Address.segments_of_collection hbase hplace
  obtain ⟨a, hread, hquery, ha⟩ := Address.segments_of_location u.uid hbase hparts
  have hplaceOf : h.placeOf u.action u.uid = h.location u.uid := by
    cases haction : u.action with
    | create => exact absurd haction hu
    | update | delete => rfl
  have hrequest : h.change? u = some ⟨methodOf u.action, a.target, key, some u.toJson⟩ := by
    rw [change?, hplaceOf, location, hread, hkey]
    rfl
  have htarget (hplain : PlainIdentifier u.uid) :
      a.target = place.target ++ "/uid/" ++ Address.written u.uid.toList :=
    Address.target_of_plain hplain hplaceQuery hsegments hquery ha
  refine ⟨a, hrequest, ⟨Address.plain_of_isPlaceOf hplaceQuery hsegments ha, fun hplain => ?_⟩,
    htarget⟩
  refine ⟨_, htarget hplain, fun hmem => ?_, fun hmem => (Address.of_mem_written hmem).1 rfl, ?_⟩
  · cases (hplain.allowed _ ((Address.of_mem_written hmem).2 rfl)).1
  · rw [Address.percentDecoded_written, Text.percentDecoded_eq_utf8_iff.mpr hplain.unescaped]

/-- Below a base that `IsBarePath` the request by `change?` for a known record goes to the place of
its identifier exactly if it is a `PlainIdentifier`, and different plain identifiers have different
places. -/
theorem sent_to_own_place_iff (hbase : Address.IsBarePath h.base.toList)
    (hplace : Address.read? h.collection = some place) (hkey : h.header? = some key) :
    (∀ u : ResourceUpdate, u.action ≠ .create → ∃ r, h.change? u = some r ∧
      (IsPlaceOf place.target r.target u.uid ↔ PlainIdentifier u.uid)) ∧
    (∀ (u v : ResourceUpdate) (r s : HttpRequest), u.action ≠ .create → v.action ≠ .create →
      PlainIdentifier u.uid → PlainIdentifier v.uid → h.change? u = some r →
      h.change? v = some s → r.target = s.target → u.uid = v.uid) := by
  constructor
  · intro u hu
    obtain ⟨a, hrequest, hiff, -⟩ := exists_request hbase hplace hkey hu
    exact ⟨_, hrequest, hiff⟩
  · intro u v r s hu hv hplainU hplainV hr hs htarget
    obtain ⟨a, hrequestU, -, hatU⟩ := exists_request hbase hplace hkey hu
    obtain ⟨b, hrequestV, -, hatV⟩ := exists_request hbase hplace hkey hv
    obtain rfl := Option.some.inj (hrequestU.symm.trans hr)
    obtain rfl := Option.some.inj (hrequestV.symm.trans hs)
    dsimp only at htarget
    rw [hatU hplainU, hatV hplainV, String.append_right_inj] at htarget
    -- Read back, the segments stand for the identifiers.
    have hbytes := congrArg (fun segment => percentDecoded segment.toList) htarget
    rw [Address.percentDecoded_written, Address.percentDecoded_written,
      Text.percentDecoded_eq_utf8_iff.mpr hplainU.unescaped,
      Text.percentDecoded_eq_utf8_iff.mpr hplainV.unescaped] at hbytes
    exact String.toList_inj.mp (Text.utf8_injective hbytes)

/-- Below `/api` an identifier with a blank and one beyond ASCII have places of their own. -/
theorem sent_to_own_place_below_api :
    let h : HttpInventory := ⟨"/api", some "key"⟩
    let u : ResourceUpdate := ⟨.cluster "c-1", "v1", "Pod", "a b", .update, "h", .null⟩
    let v : ResourceUpdate := ⟨.cluster "c-1", "v1", "Pod", "ä", .delete, "", .null⟩
    (Address.IsBarePath h.base.toList ∧ h.collection = "/api/v1/resources" ∧
      PlainIdentifier u.uid ∧ PlainIdentifier v.uid ∧ ¬ PlainIdentifier "a%20b") ∧
    ∃ r s, h.change? u = some r ∧ h.change? v = some s ∧
      IsPlaceOf "/api/v1/resources" r.target "a b" ∧ IsPlaceOf "/api/v1/resources" s.target "ä" ∧
      r.target ≠ s.target := by
  intro h u v
  have hbase : Address.IsBarePath h.base.toList := by decide
  have hplace : Address.read? h.collection = some ⟨["api", "v1", "resources"], none⟩ := by
    decide +kernel
  have hkey : h.header? = some (some "key") := by decide +kernel
  have hu : PlainIdentifier u.uid := by decide +kernel
  have hv : PlainIdentifier v.uid := by decide +kernel
  have hplaces := sent_to_own_place_iff hbase hplace hkey
  obtain ⟨r, hr, hru⟩ := hplaces.1 u nofun
  obtain ⟨s, hs, hsv⟩ := hplaces.1 v nofun
  have htarget : Address.target ⟨["api", "v1", "resources"], none⟩ = "/api/v1/resources" := by
    decide +kernel
  rw [htarget] at hru hsv
  refine ⟨⟨hbase, by decide, hu, hv, by decide +kernel⟩, r, s, hr, hs, hru.mpr hu, hsv.mpr hv,
    fun heq => ?_⟩
  have huid := hplaces.2 u v r s nofun nofun hu hv hr hs heq
  revert huid
  decide

/-- What follows a number sign is not sent, so two identifiers share a place; and two dots take a
request out of the places of identifiers. -/
theorem sent_to_other_place :
    let h : HttpInventory := ⟨"", none⟩
    let update : String → ResourceUpdate :=
      fun uid => ⟨.cluster "c-1", "apps/v1", "Deployment", uid, .update, "h", .null⟩
    h.change? (update "a") = some ⟨.put, "/v1/resources/uid/a", none, some (update "a").toJson⟩ ∧
    h.change? (update "a#b") =
      some ⟨.put, "/v1/resources/uid/a", none, some (update "a#b").toJson⟩ ∧
    h.change? (update "..") = some ⟨.put, "/v1/resources/", none, some (update "..").toJson⟩ ∧
    ¬ IsPlaceOf "/v1/resources" "/v1/resources/uid/a" "a#b" ∧
    ¬ IsPlaceOf "/v1/resources" "/v1/resources/" ".." := by
  refine ⟨by decide +kernel, by decide +kernel, by decide +kernel, ?_, ?_⟩
  · rintro ⟨segment, htarget, -, -, hdecoded⟩
    have hplace : "/v1/resources/uid/a" = "/v1/resources" ++ "/uid/" ++ "a" := by decide
    rw [hplace, String.append_right_inj] at htarget
    have hplain : percentDecoded "a".toList = utf8 "a".toList :=
      Text.percentDecoded_eq_utf8_iff.mpr (by decide)
    rw [← htarget, hplain] at hdecoded
    have hcut := Text.utf8_injective hdecoded
    revert hcut
    decide
  · rintro ⟨segment, htarget, -, -, -⟩
    have hlength := congrArg String.length htarget
    have hplace : "/v1/resources/".length = 14 ∧ "/v1/resources".length = 13 ∧
        "/uid/".length = 5 := by decide
    rw [String.length_append, String.length_append, hplace.1, hplace.2.1, hplace.2.2] at hlength
    omega

end HttpInventory
end InventorySync
