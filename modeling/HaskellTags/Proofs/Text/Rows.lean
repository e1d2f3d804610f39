import HaskellTags.Proofs.Lists
import HaskellTags.Proofs.Text.Decoding
import HaskellTags.Text.Lines
import Mathlib.Data.List.DropRight

/-!
# Lines and rows

A concrete tree counts rows by the line feeds among the octets of a source, and
a tag looks its pattern up among the lines of the decoded text.  Both count
alike: `lines_decode` says that the lines are the decoded rows, each without a
carriage return at its end, however ill formed the source is.

`getElem?_rows` finds the row of an offset from the number of line feeds before
it and shows the row as what stands before the offset and what stands after.
-/

namespace HaskellTags
namespace Text

section Splitting

variable {α : Type}

/-- The parts between separators are those of the standard library. -/
theorem splitWhen_eq_splitOnP
    (separates : α → Bool)
    (xs : List α) :
    splitWhen separates xs = xs.splitOnP separates := by
  induction xs with
  | nil =>
      rfl
  | cons x xs ih =>
      rw [splitWhen, List.splitOnP_cons_eq_if_modifyHead, ih]
      have hne := List.splitOnP_ne_nil separates xs
      cases h : xs.splitOnP separates with
      | nil =>
          exact absurd h hne
      | cons part parts =>
          rfl

theorem splitWhen_ne_nil
    (separates : α → Bool)
    (xs : List α) :
    splitWhen separates xs ≠ [] := by
  rw [splitWhen_eq_splitOnP]
  exact List.splitOnP_ne_nil separates xs

/-- Without a separator there is one part. -/
theorem splitWhen_eq_singleton
    {separates : α → Bool} {xs : List α}
    (hxs : ∀ x ∈ xs, separates x = false) :
    splitWhen separates xs = [xs] := by
  rw [splitWhen_eq_splitOnP]
  exact List.splitOnP_eq_singleton hxs

/-- A separator parts what stands before it from what stands after it. -/
theorem splitWhen_append_cons
    {separates : α → Bool}
    (xs ys : List α)
    {separator : α}
    (hsep : separates separator = true) :
    splitWhen separates (xs ++ separator :: ys) =
      splitWhen separates xs ++ splitWhen separates ys := by
  simp only [splitWhen_eq_splitOnP]
  exact List.splitOnP_append_cons xs ys hsep

/-- There is one part more than separators. -/
theorem length_splitWhen
    (separates : α → Bool)
    (xs : List α) :
    (splitWhen separates xs).length = xs.countP separates + 1 := by
  induction xs with
  | nil =>
      rfl
  | cons x xs ih =>
      have hne := splitWhen_ne_nil separates xs
      cases hx : separates x with
      | true =>
          simp [splitWhen, hx, ih]
      | false =>
          cases h : splitWhen separates xs with
          | nil =>
              exact absurd h hne
          | cons part parts =>
              rw [h] at ih
              simp [splitWhen, hx, h] at ih ⊢
              exact ih

/-- The first part ends before the first separator. -/
theorem head?_splitWhen
    (separates : α → Bool)
    (xs : List α) :
    (splitWhen separates xs).head? =
      some (xs.takeWhile fun x => !separates x) := by
  induction xs with
  | nil =>
      rfl
  | cons x xs ih =>
      cases hx : separates x with
      | true =>
          simp [splitWhen, hx]
      | false =>
          cases h : splitWhen separates xs with
          | nil =>
              exact absurd h (splitWhen_ne_nil separates xs)
          | cons part parts =>
              simp [h] at ih
              simp [splitWhen, hx, h, ih]

/-- No part holds a separator. -/
theorem not_of_mem_splitWhen
    {separates : α → Bool} {xs part : List α} {x : α}
    (hpart : part ∈ splitWhen separates xs)
    (hx : x ∈ part) :
    separates x = false := by
  induction xs generalizing part with
  | nil =>
      simp only [splitWhen, List.mem_singleton] at hpart
      simp [hpart] at hx
  | cons y ys ih =>
      cases hy : separates y with
      | true =>
          simp only [splitWhen, hy, if_true, List.mem_cons] at hpart
          rcases hpart with rfl | hpart
          · cases hx
          · exact ih hpart hx
      | false =>
          cases hparts : splitWhen separates ys with
          | nil =>
              exact absurd hparts (splitWhen_ne_nil separates ys)
          | cons first parts =>
              simp only [splitWhen, hy, hparts, Bool.false_eq_true, if_false,
                List.mem_cons] at hpart
              rcases hpart with rfl | hpart
              · rcases List.mem_cons.1 hx with rfl | hx
                · exact hy
                · exact ih (hparts ▸ List.mem_cons_self) hx
              · exact ih (hparts ▸ List.mem_cons_of_mem _ hpart) hx

/--
The part in which two lists meet: the elements after the last separator of the
first and before the first separator of the second.
-/
theorem getElem?_splitWhen_append
    (separates : α → Bool)
    (xs ys : List α) :
    (splitWhen separates (xs ++ ys))[xs.countP separates]? =
      some (xs.rtakeWhile (fun x => !separates x) ++
        ys.takeWhile (fun y => !separates y)) := by
  -- `xs` is cut after its last separator
  generalize hinit : xs.rdropWhile (fun x => !separates x) = init
  generalize htail : xs.rtakeWhile (fun x => !separates x) = tail
  have hxs : xs = init ++ tail := by
    rw [← hinit, ← htail, List.rdropWhile_append_rtakeWhile]
  have hfree : ∀ x ∈ tail, (!separates x) = true := by
    intro x hx
    rw [← htail] at hx
    exact List.mem_rtakeWhile_imp (p := fun x => !separates x) hx
  have hcount : tail.countP separates = 0 := by
    rw [List.countP_eq_zero]
    intro x hx
    simpa using hfree x hx
  have hhead :
      (splitWhen separates (tail ++ ys)).head? =
        some (tail ++ ys.takeWhile fun y => !separates y) := by
    rw [head?_splitWhen, List.takeWhile_append_of_pos hfree]
  rcases List.eq_nil_or_concat' init with hnil | ⟨before, last, hconcat⟩
  · rw [hxs, hnil, List.nil_append, hcount, ← List.head?_eq_getElem?]
    exact hhead
  · have hsep : separates last = true := by
      have hlast :=
        List.rdropWhile_last_not (fun x => !separates x) xs
          (by simp [hinit, hconcat])
      simpa [hinit, hconcat] using hlast
    have hindex :
        xs.countP separates = (splitWhen separates before).length := by
      simp [hxs, hconcat, hcount, hsep, length_splitWhen]
    rw [hindex, hxs, hconcat, List.append_assoc, List.append_assoc,
      List.singleton_append, splitWhen_append_cons before _ hsep,
      List.getElem?_append_right (Nat.le_refl _), Nat.sub_self,
      ← List.head?_eq_getElem?]
    exact hhead

theorem splitText_of_not_mem
    {separator : Char} {s : String}
    (hs : separator ∉ s.toList) :
    splitText (· == separator) s = [s] := by
  have hfree : ∀ c ∈ s.toList, (c == separator) = false := by
    intro c hc
    exact beq_false_of_ne (ne_of_mem_of_not_mem hc hs)
  rw [splitText, splitWhen_eq_singleton hfree]
  simp

theorem splitText_append_separator
    (separator : Char)
    (s rest : String) :
    splitText (· == separator) (s ++ (String.singleton separator ++ rest)) =
      splitText (· == separator) s ++ splitText (· == separator) rest := by
  have hcut :
      splitWhen (· == separator) (s.toList ++ separator :: rest.toList) =
        splitWhen (· == separator) s.toList ++
          splitWhen (· == separator) rest.toList :=
    splitWhen_append_cons s.toList rest.toList BEq.rfl
  simp only [splitText, String.toList_append, String.toList_singleton,
    List.singleton_append, hcut, List.map_append]

/-- Texts without the separator are told apart by it. -/
theorem splitText_intercalate
    {separator : Char} {texts : List String}
    (hne : texts ≠ [])
    (hfree : ∀ text ∈ texts, separator ∉ text.toList) :
    splitText (· == separator) ((String.singleton separator).intercalate texts) = texts := by
  have hlists : texts.map String.toList ≠ [] := by
    simpa using hne
  have hcut : ∀ xs ys : List Char,
      splitWhen (· == separator) (xs ++ separator :: ys) =
        splitWhen (· == separator) xs ++ splitWhen (· == separator) ys :=
    fun xs ys => splitWhen_append_cons xs ys BEq.rfl
  have hparts :
      splitWhen (· == separator) ([separator].intercalate (texts.map String.toList)) =
        texts.flatMap fun text => splitWhen (· == separator) text.toList := by
    rw [Lists.flatMap_intercalate hcut hlists, List.flatMap_map]
  rw [splitText, String.toList_intercalate, String.toList_singleton, hparts, List.map_flatMap]
  calc
    (texts.flatMap fun text => splitText (· == separator) text) =
        texts.flatMap fun text => [text] :=
      List.flatMap_congr fun text htext => splitText_of_not_mem (hfree text htext)
    _ = texts := List.flatMap_singleton' texts

end Splitting

section Rows

/-- The octet that ends a row. -/
def lineFeed : UInt8 := 0x0A

/-- The rows of a source: the octets between its line feeds. -/
def rows (source : Octets) : List Octets :=
  splitWhen (· == lineFeed) source

theorem rows_eq_splitOn
    (source : Octets) :
    rows source = source.splitOn lineFeed :=
  splitWhen_eq_splitOnP (· == lineFeed) source

theorem rows_append_lineFeed
    (before after : Octets) :
    rows (before ++ lineFeed :: after) = rows before ++ rows after :=
  splitWhen_append_cons before after BEq.rfl

/-- Octets without a line feed are one row. -/
theorem rows_eq_singleton
    {source : Octets}
    (hsource : lineFeed ∉ source) :
    rows source = [source] := by
  apply splitWhen_eq_singleton
  intro octet hoctet
  rw [beq_eq_false_iff_ne]
  rintro rfl
  exact hsource hoctet

theorem lineFeed_not_mem_octetsOf
    {s : String}
    (hs : '\n' ∉ s.toList) :
    lineFeed ∉ octetsOf s := by
  intro hmem
  obtain ⟨c, hc, hoctet⟩ := List.mem_flatMap.1 hmem
  have hnumber : c.toNat = lineFeed.toNat := toNat_of_mem_utf8EncodeChar (by decide) hoctet
  have hchar : c = '\n' := Char.toNat_inj.1 hnumber
  exact hs (hchar ▸ hc)

/-- Octets without a line feed have a text on one line. -/
theorem splitWhen_decodeChars_eq_singleton
    {source : Octets}
    (hsource : lineFeed ∉ source) :
    splitWhen (· == '\n') (decodeChars source) = [decodeChars source] := by
  apply splitWhen_eq_singleton
  intro c hc
  rw [beq_eq_false_iff_ne]
  rintro rfl
  obtain ⟨octet, hmem, heq⟩ :=
    exists_octet_of_mem_decodeChars hc (by decide)
  have hfeed : octet = lineFeed :=
    UInt8.toNat_inj.mp heq.symm
  exact hsource (hfeed ▸ hmem)

/-- Splitting the decoded text is decoding the rows. -/
theorem splitWhen_decodeChars
    (source : Octets) :
    splitWhen (· == '\n') (decodeChars source) =
      (rows source).map decodeChars := by
  -- the source is cut at its first line feed, and what follows is shorter
  induction hlength : source.length using Nat.strongRecOn generalizing source with
  | _ n ih =>
      by_cases hfeed : lineFeed ∈ source
      · obtain ⟨before, after, hsource, hbefore⟩ :=
          List.eq_append_cons_of_mem hfeed
        have hshorter : after.length < n := by
          rw [← hlength, hsource]
          simp
          omega
        have hrows : rows source = before :: rows after := by
          rw [hsource, rows_append_lineFeed]
          exact congrArg (· ++ rows after) (rows_eq_singleton hbefore)
        rw [hrows, hsource,
          decodeChars_append_cons before after (show lineFeed.toNat < 0x80 by decide),
          splitWhen_append_cons _ _ (by decide),
          splitWhen_decodeChars_eq_singleton hbefore,
          ih after.length hshorter after rfl]
        rfl
      · rw [rows_eq_singleton hfeed,
          splitWhen_decodeChars_eq_singleton hfeed]
        rfl

/-- The lines of a source are its decoded rows, whatever its octets are. -/
theorem lines_decode
    (source : Octets) :
    lines (decode source) =
      (rows source).map fun row =>
        String.ofList (dropReturn (decodeChars row)) := by
  simp [lines, decode, splitWhen_decodeChars]

/-- There is one line more than line feeds. -/
theorem length_lines_decode
    (source : Octets) :
    (lines (decode source)).length = source.count lineFeed + 1 := by
  rw [lines_decode, List.length_map, rows, length_splitWhen]
  rfl

/-- A line ends before a line feed. -/
theorem lineFeed_not_mem_of_mem_lines
    {text line : String}
    (hline : line ∈ lines text) :
    '\n' ∉ line.toList := by
  obtain ⟨part, hpart, rfl⟩ := List.mem_map.1 hline
  rw [String.toList_ofList]
  intro hfeed
  have hmem : '\n' ∈ part := by
    unfold dropReturn at hfeed
    split at hfeed
    · exact List.dropLast_subset part hfeed
    · exact hfeed
  have hfree := not_of_mem_splitWhen hpart hmem
  cases hfree

/-- The lines of a decoded source are its rows, decoded one by one; a row that ends with a
carriage return loses this one character, and any other stays as it is.  So there is one line
more than line feeds, and no line holds one. -/
theorem lines_agree_with_rows
    (source : Octets) :
    lines (decode source) =
        (source.splitOn lineFeed).map (fun row =>
          if (decode row).toList.getLast? = some '\r' then
            String.ofList (decode row).toList.dropLast
          else decode row) ∧
      (lines (decode source)).length = source.count lineFeed + 1 ∧
      ∀ line ∈ lines (decode source), '\n' ∉ line.toList := by
  refine ⟨?_, length_lines_decode source, fun line => lineFeed_not_mem_of_mem_lines⟩
  rw [lines_decode, rows_eq_splitOn]
  apply List.map_congr_left
  intro row _
  have hchars : (decode row).toList = decodeChars row := by
    rw [decode, String.toList_ofList]
  rw [hchars, dropReturn]
  split
  · rfl
  · rfl

/-- The offset at which the line of an offset starts: just after the last line
feed before it. -/
def lineStart (source : Octets) (offset : Nat) : Nat :=
  ((source.take offset).rdropWhile (· != lineFeed)).length

/-- The octets of a line up to an offset. -/
theorem slice_lineStart
    (source : Octets)
    (offset : Nat) :
    slice source (lineStart source offset) offset =
      (source.take offset).rtakeWhile (· != lineFeed) := by
  have hcut :=
    List.rdropWhile_append_rtakeWhile (p := (· != lineFeed))
      (l := source.take offset)
  rw [slice, ← List.drop_take, lineStart]
  generalize (source.take offset).rdropWhile (· != lineFeed) = init at hcut ⊢
  generalize (source.take offset).rtakeWhile (· != lineFeed) = tail at hcut ⊢
  rw [← hcut, List.drop_left]

/--
The row of an offset, found by the number of line feeds before it: first the
octets from the start of the line, then those up to the next line feed.
-/
theorem getElem?_rows
    (source : Octets)
    (offset : Nat) :
    (rows source)[(source.take offset).count lineFeed]? =
      some (slice source (lineStart source offset) offset ++
        (source.drop offset).takeWhile (· != lineFeed)) := by
  have hpart :=
    getElem?_splitWhen_append (· == lineFeed)
      (source.take offset) (source.drop offset)
  rw [List.take_append_drop] at hpart
  rw [slice_lineStart]
  exact hpart

end Rows

section Returns

/-- A carriage return is dropped from the end alone: text that ends otherwise
stays. -/
theorem dropReturn_append
    (before : List Char)
    {middle : List Char}
    (hmiddle : middle ≠ [])
    (hreturn : '\r' ∉ middle)
    (after : List Char) :
    dropReturn (before ++ middle ++ after) =
      before ++ middle ++ dropReturn after := by
  rcases List.eq_nil_or_concat' after with rfl | ⟨init, last, rfl⟩
  · have hlast : (before ++ middle).getLast? ≠ some '\r' := by
      rw [List.getLast?_append_of_ne_nil _ hmiddle]
      intro h
      exact hreturn (List.mem_of_getLast? h)
    rw [List.append_nil, dropReturn, if_neg hlast]
    exact (List.append_nil _).symm
  · by_cases hlast : last = '\r'
    · simp [dropReturn, hlast, ← List.append_assoc]
    · simp [dropReturn, hlast, ← List.append_assoc]

end Returns

section Pieces

/-- The octet that stands before the line feed in some sources. -/
def carriageReturn : UInt8 := 0x0D

/-- A range of a source that is a piece of one line and starts and ends between
characters. -/
structure LinePiece (source : Octets) (start stop : Nat) : Prop where
  nonempty : start < stop
  inside : stop ≤ source.length
  no_feed : lineFeed ∉ slice source start stop
  no_return : carriageReturn ∉ slice source start stop
  start_between : ∀ octet ∈ source[start]?, isContinuation octet = false
  stop_between : ∀ octet ∈ source[stop]?, isContinuation octet = false

theorem all_between_iff
    {octet? : Option UInt8} :
    octet?.all (fun octet => !isContinuation octet) = true ↔
      ∀ octet ∈ octet?, isContinuation octet = false := by
  cases octet? <;> simp

instance (source : Octets) (start stop : Nat) :
    Decidable (LinePiece source start stop) :=
  decidable_of_iff
    (start < stop ∧ stop ≤ source.length ∧
      lineFeed ∉ slice source start stop ∧
      carriageReturn ∉ slice source start stop ∧
      source[start]?.all (fun octet => !isContinuation octet) = true ∧
      source[stop]?.all (fun octet => !isContinuation octet) = true)
    ⟨fun ⟨h₁, h₂, h₃, h₄, h₅, h₆⟩ =>
        ⟨h₁, h₂, h₃, h₄, all_between_iff.1 h₅, all_between_iff.1 h₆⟩,
      fun ⟨h₁, h₂, h₃, h₄, h₅, h₆⟩ =>
        ⟨h₁, h₂, h₃, h₄, all_between_iff.2 h₅, all_between_iff.2 h₆⟩⟩

namespace LinePiece

variable {source : Octets} {start stop : Nat}

/-- What follows the start of a piece is the piece and what follows its end. -/
theorem drop_eq
    (h : LinePiece source start stop) :
    source.drop start = slice source start stop ++ source.drop stop := by
  have hlength : start + (stop - start) = stop := by
    have := h.nonempty
    omega
  have hcut := List.take_append_drop (stop - start) (source.drop start)
  rw [List.drop_drop, hlength] at hcut
  exact hcut.symm

theorem slice_ne_nil
    (h : LinePiece source start stop) :
    slice source start stop ≠ [] := by
  have hlt := h.nonempty
  have hle := h.inside
  apply List.ne_nil_of_length_pos
  simp only [slice, List.length_take, List.length_drop]
  omega

/-- From its start on, the line of a piece is the piece and the rest of the line. -/
theorem takeWhile_drop
    (h : LinePiece source start stop) :
    (source.drop start).takeWhile (· != lineFeed) =
      slice source start stop ++
        (source.drop stop).takeWhile (· != lineFeed) := by
  rw [h.drop_eq]
  apply List.takeWhile_append_of_pos
  intro octet hoctet
  rw [bne_iff_ne]
  rintro rfl
  exact h.no_feed hoctet

/-- The rest of the line starts afresh. -/
theorem rest_startsAfresh
    (h : LinePiece source start stop) :
    StartsAfresh ((source.drop stop).takeWhile (· != lineFeed)) := by
  intro octet hoctet
  apply h.stop_between octet
  rw [← List.head?_drop]
  cases hdrop : source.drop stop with
  | nil =>
      simp [hdrop] at hoctet
  | cons first rest =>
      rw [hdrop, List.takeWhile_cons] at hoctet
      split at hoctet
      · simpa using hoctet
      · simp at hoctet

/-- The piece starts afresh, whatever follows it on the line. -/
theorem startsAfresh
    (h : LinePiece source start stop) :
    StartsAfresh (slice source start stop ++
      (source.drop stop).takeWhile (· != lineFeed)) := by
  intro octet hoctet
  apply h.start_between octet
  rw [← List.head?_drop, h.drop_eq, List.head?_append_of_ne_nil _ h.slice_ne_nil]
  rw [List.head?_append_of_ne_nil _ h.slice_ne_nil] at hoctet
  exact hoctet

/-- The text of a piece holds no carriage return. -/
theorem return_not_mem
    (h : LinePiece source start stop) :
    '\r' ∉ decodeChars (slice source start stop) := by
  intro hreturn
  obtain ⟨octet, hmem, heq⟩ :=
    exists_octet_of_mem_decodeChars hreturn (by decide)
  have hoctet : octet = carriageReturn :=
    UInt8.toNat_inj.mp heq.symm
  exact h.no_return (hoctet ▸ hmem)

/--
The line of a piece, found by the number of line feeds before it: the text of
the line up to the piece, the text of the piece, and some more.
-/
theorem exists_line
    (h : LinePiece source start stop) :
    ∃ rest : String,
      (lines (decode source))[(source.take start).count lineFeed]? =
        some (decode (slice source (lineStart source start) start) ++
          decode (slice source start stop) ++ rest) := by
  refine
    ⟨String.ofList (dropReturn (decodeChars
      ((source.drop stop).takeWhile (· != lineFeed)))), ?_⟩
  rw [lines_decode, List.getElem?_map, getElem?_rows, h.takeWhile_drop]
  rw [Option.map_some,
    decodeChars_append _ h.startsAfresh,
    decodeChars_append _ h.rest_startsAfresh,
    ← List.append_assoc,
    dropReturn_append _ (mt decodeChars_eq_nil_iff.mp h.slice_ne_nil)
      h.return_not_mem]
  simp [decode, String.ofList_append, String.append_assoc]

end LinePiece

end Pieces

end Text
end HaskellTags
