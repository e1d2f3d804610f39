import HaskellTags.Proofs.Lists
import HaskellTags.Proofs.Text.Rows
import HaskellTags.Tree.Region
import Mathlib.Data.List.ReduceOption

/-!
# Regions read offset by offset

The text of a region is cut out of the source by a cursor that goes from comment to
comment.  Here the region is read offset by offset instead: at each offset stands a
mark for each comment that begins there, and the octet, unless a comment covers it.
`markedRegion_eq` says that both readings agree, for comments that stand one after
another.

A comment may begin before the region and reach into it; then its mark stands at the
start of the region.  It may also reach beyond the end, or be empty.
-/

namespace HaskellTags
namespace Tree

open Text

section Offsets

/-- The offsets from one up to another. -/
def offsets (low high : Nat) : List Nat :=
  List.range' low (high - low)

theorem mem_offsets
    {low high i : Nat} :
    i ∈ offsets low high ↔ low ≤ i ∧ i < high := by
  rw [offsets, List.mem_range'_1]
  omega

theorem offsets_of_le
    {low high : Nat}
    (h : high ≤ low) :
    offsets low high = [] := by
  rw [offsets, Nat.sub_eq_zero_of_le h]
  rfl

theorem offsets_cons
    {low high : Nat}
    (h : low < high) :
    offsets low high = low :: offsets (low + 1) high := by
  have hlength : high - low = (high - (low + 1)) + 1 := by omega
  rw [offsets, hlength, List.range'_succ]
  rfl

/-- Offsets up to a middle one and from there on. -/
theorem offsets_append
    {low middle high : Nat}
    (hlow : low ≤ middle)
    (hhigh : middle ≤ high) :
    offsets low high = offsets low middle ++ offsets middle high := by
  have hlength : high - low = (middle - low) + (high - middle) := by omega
  have hmiddle : low + 1 * (middle - low) = middle := by omega
  rw [offsets, hlength, ← List.range'_append, hmiddle]
  rfl

/-- Where nothing is shown before an offset, reading starts there. -/
theorem flatMap_offsets_of_le
    {α : Type} {low middle : Nat} {f : Nat → List α}
    (hlow : low ≤ middle)
    (hf : ∀ i, low ≤ i → i < middle → f i = [])
    (high : Nat) :
    (offsets low high).flatMap f = (offsets middle high).flatMap f := by
  have hnone : ∀ top, top ≤ middle → (offsets low top).flatMap f = [] := by
    intro top htop
    rw [List.flatMap_eq_nil_iff]
    intro i hi
    obtain ⟨hge, hlt⟩ := mem_offsets.1 hi
    exact hf i hge (by omega)
  rcases Nat.le_total middle high with hhigh | hhigh
  · rw [offsets_append hlow hhigh, List.flatMap_append, hnone middle (Nat.le_refl _)]
    rfl
  · rw [hnone high hhigh, offsets_of_le hhigh]
    rfl

/-- Where nothing is shown at the last offset, reading ends before it. -/
theorem flatMap_offsets_succ
    {α : Type} {low high : Nat} {f : Nat → List α}
    (hf : f high = []) :
    (offsets low (high + 1)).flatMap f = (offsets low high).flatMap f := by
  rcases Nat.lt_or_ge high low with hlow | hlow
  · rw [offsets_of_le hlow, offsets_of_le (Nat.le_of_lt hlow)]
  · rw [offsets_append hlow (Nat.le_succ high), List.flatMap_append,
      offsets_cons (Nat.lt_succ_self high), List.flatMap_cons, hf,
      offsets_of_le (Nat.le_refl _)]
    exact List.append_nil _

/-- What is shown at the first offset alone comes first. -/
theorem flatMap_offsets_of_first
    {α : Type} {low high : Nat}
    (hlow : low < high)
    (a : α)
    (f : Nat → List α) :
    (offsets low high).flatMap (fun i => (if low = i then [a] else []) ++ f i) =
      a :: (offsets low high).flatMap f := by
  have hrest : ∀ i ∈ offsets (low + 1) high, (if low = i then [a] else []) ++ f i = f i := by
    intro i hi
    have hlater := (mem_offsets.1 hi).1
    rw [if_neg (by omega)]
    rfl
  rw [offsets_cons hlow, List.flatMap_cons, List.flatMap_cons, List.flatMap_congr hrest, if_pos rfl]
  rfl

/-- A slice is read off its offsets. -/
theorem slice_eq_flatMap
    (source : Octets)
    (low high : Nat) :
    slice source low high = (offsets low high).flatMap fun i => source[i]?.toList := by
  induction hlength : high - low generalizing low with
  | zero =>
      rw [offsets_of_le (by omega), slice, hlength]
      rfl
  | succ length ih =>
      have hlt : low < high := by omega
      rw [offsets_cons hlt, List.flatMap_cons, ← ih (low + 1) (by omega), slice, hlength]
      cases hdrop : source.drop low with
      | nil =>
          have hend : source.length ≤ low := List.drop_eq_nil_iff.1 hdrop
          simp [slice, hend, List.drop_eq_nil_of_le (show source.length ≤ low + 1 by omega)]
      | cons octet rest =>
          have hoctet : source[low]? = some octet := by
            rw [← List.head?_drop, hdrop]
            rfl
          have hrest : source.drop (low + 1) = rest := by
            rw [← List.drop_drop, hdrop]
            rfl
          have hshorter : high - (low + 1) = length := by omega
          rw [hoctet, slice, hrest, hshorter]
          rfl

end Offsets

section Reading

/-- Whether an offset lies in a node. -/
def Node.covers (i : Nat) (n : Node) : Bool :=
  n.label.startByte ≤ i && i < n.label.endByte

/-- Whether a node begins at an offset of a region; one that begins before the region
begins with it. -/
def Node.beginsAt (start i : Nat) (n : Node) : Bool :=
  max start n.label.startByte = i

/-- What a region shows at an offset: a mark for each comment that begins there and
has a part in the region, and the octet, if it is in the region and in no comment. -/
def markedAt (source : Octets) (comments : List Node) (start stop i : Nat) :
    List (Option UInt8) :=
  (comments.filter fun c => c.touches start stop && c.beginsAt start i).map (fun _ => none) ++
    if i < stop && !comments.any (Node.covers i) then source[i]?.toList.map some else []

/-- A region read offset by offset.  The offset at its end is read for the mark of a
comment around a region without octets. -/
def markedRegion (source : Octets) (comments : List Node) (start stop : Nat) :
    List (Option UInt8) :=
  (offsets start (stop + 1)).flatMap (markedAt source comments start stop)

/-- Nodes stand one after another in the source. -/
structure InSequence (ns : List Node) : Prop where
  start_le_end : ∀ n ∈ ns, n.label.startByte ≤ n.label.endByte
  end_le_start : ns.Pairwise fun a b => a.label.endByte ≤ b.label.startByte

theorem InSequence.filter
    {ns : List Node}
    (h : InSequence ns)
    (p : Node → Bool) :
    InSequence (ns.filter p) :=
  ⟨fun n hn => h.start_le_end n (List.mem_of_mem_filter hn), h.end_le_start.filter p⟩

theorem InSequence.tail
    {n : Node} {ns : List Node}
    (h : InSequence (n :: ns)) :
    InSequence ns :=
  ⟨fun m hm => h.start_le_end m (List.mem_cons_of_mem n hm), h.end_le_start.of_cons⟩

theorem InSequence.end_le
    {n m : Node} {ns : List Node}
    (h : InSequence (n :: ns))
    (hm : m ∈ ns) :
    n.label.endByte ≤ m.label.startByte :=
  List.rel_of_pairwise_cons h.end_le_start hm

end Reading

section Comments

variable {source : Octets} {start stop : Nat}

theorem touches_iff
    {n : Node} :
    n.touches start stop = true ↔ start < n.label.endByte ∧ n.label.startByte < stop := by
  simp [Node.touches]

theorem covers_iff
    {n : Node} {i : Nat} :
    n.covers i = true ↔ n.label.startByte ≤ i ∧ i < n.label.endByte := by
  simp [Node.covers]

/-- Only comments with a part in the region count. -/
theorem markedAt_filter
    (source : Octets)
    (comments : List Node)
    (stop : Nat)
    {i : Nat}
    (hi : start ≤ i) :
    markedAt source (comments.filter (Node.touches start stop)) start stop i =
      markedAt source comments start stop i := by
  have hmarks :
      (comments.filter (Node.touches start stop)).filter
          (fun c => c.touches start stop && c.beginsAt start i) =
        comments.filter fun c => c.touches start stop && c.beginsAt start i := by
    rw [List.filter_filter]
    apply List.filter_congr
    intro c _
    cases c.touches start stop <;> simp
  have hcovered :
      i < stop →
        (comments.filter (Node.touches start stop)).any (Node.covers i) =
          comments.any (Node.covers i) := by
    intro hlt
    rw [List.any_filter]
    congr 1
    funext c
    cases hc : c.covers i with
    | false =>
        rw [Bool.and_false]
    | true =>
        obtain ⟨hlow, hhigh⟩ := covers_iff.1 hc
        rw [touches_iff.2 ⟨by omega, by omega⟩]
        rfl
  unfold markedAt
  rw [hmarks]
  by_cases hlt : i < stop
  · rw [hcovered hlt]
  · simp [hlt]

/-- Before the first comment begins the octets stand as they are. -/
theorem markedAt_of_lt
    {comments : List Node} {i : Nat}
    (hi : start ≤ i)
    (hlt : i < stop)
    (hlater : ∀ c ∈ comments, i < max start c.label.startByte) :
    markedAt source comments start stop i = source[i]?.toList.map some := by
  have hmarks :
      comments.filter (fun c => c.touches start stop && c.beginsAt start i) = [] := by
    rw [List.filter_eq_nil_iff]
    intro c hc
    have hne : max start c.label.startByte ≠ i := Nat.ne_of_gt (hlater c hc)
    simp [Node.beginsAt, hne]
  have hclear : comments.any (Node.covers i) = false := by
    rw [List.any_eq_false]
    intro c hc hcovers
    have hafter := hlater c hc
    obtain ⟨hlow, -⟩ := covers_iff.1 hcovers
    omega
  rw [markedAt, hmarks, hclear]
  simp [hlt]

/-- From where a comment begins on: its mark, nothing up to its end, and then what the
other comments leave. -/
theorem markedAt_cons
    {c : Node} {rest : List Node} {i : Nat}
    (hsequence : InSequence (c :: rest))
    (htouches : c.touches start stop = true)
    (hi : max start c.label.startByte ≤ i) :
    markedAt source (c :: rest) start stop i =
      (if max start c.label.startByte = i then [none] else []) ++
        if i < c.label.endByte then [] else markedAt source rest start stop i := by
  have hmark :
      (c :: rest).filter (fun c => c.touches start stop && c.beginsAt start i) =
        (if max start c.label.startByte = i then [c] else []) ++
          rest.filter fun c => c.touches start stop && c.beginsAt start i := by
    by_cases hbegins : max start c.label.startByte = i
    · simp [Node.beginsAt, hbegins, htouches]
    · simp [Node.beginsAt, hbegins]
  by_cases hinside : i < c.label.endByte
  · -- the other comments begin at the end of this one or later
    have hnone : rest.filter (fun c => c.touches start stop && c.beginsAt start i) = [] := by
      rw [List.filter_eq_nil_iff]
      intro d hd
      have hafter := hsequence.end_le hd
      have hne : max start d.label.startByte ≠ i := by omega
      simp [Node.beginsAt, hne]
    have hcovers : c.covers i = true := covers_iff.2 ⟨by omega, hinside⟩
    rw [markedAt, hmark, hnone, if_pos hinside]
    split <;> simp [hcovers]
  · have hcovers : c.covers i = false := by
      rw [Bool.eq_false_iff]
      intro hcovers
      exact hinside (covers_iff.1 hcovers).2
    rw [markedAt, hmark, if_neg hinside, markedAt, List.any_cons, hcovers, Bool.false_or]
    split <;> simp

end Comments

section Cutting

variable {source : Octets} {start stop : Nat}

theorem segments_ne_nil
    (source : Octets)
    (stop cursor : Nat)
    (comments : List Node) :
    segments source stop cursor comments ≠ [] := by
  cases comments <;> simp [segments]

/-- Offsets at which the octets stand as they are show a slice. -/
theorem flatMap_offsets_eq_slice
    {f : Nat → List (Option UInt8)} {low high : Nat}
    (hf : ∀ i, low ≤ i → i < high → f i = source[i]?.toList.map some) :
    (offsets low high).flatMap f = (slice source low high).map some := by
  rw [slice_eq_flatMap, List.map_flatMap]
  apply List.flatMap_congr
  intro i hi
  obtain ⟨hlow, hhigh⟩ := mem_offsets.1 hi
  exact hf i hlow hhigh

/-- What a comment and those after it leave, from where it begins. -/
theorem flatMap_markedAt_cons
    {c : Node} {rest : List Node}
    (hsequence : InSequence (c :: rest))
    (htouches : c.touches start stop = true)
    (hstart : start ≤ stop) :
    (offsets (max start c.label.startByte) (stop + 1)).flatMap
        (markedAt source (c :: rest) start stop) =
      none ::
        (offsets c.label.endByte (stop + 1)).flatMap (markedAt source rest start stop) := by
  obtain ⟨hend, hbegin⟩ := touches_iff.1 htouches
  have hordered := hsequence.start_le_end c List.mem_cons_self
  have hlast : max start c.label.startByte < stop + 1 := by omega
  have hle : max start c.label.startByte ≤ c.label.endByte := by omega
  rw [List.flatMap_congr fun i hi =>
      markedAt_cons hsequence htouches (mem_offsets.1 hi).1,
    flatMap_offsets_of_first hlast none]
  congr 1
  rw [flatMap_offsets_of_le hle fun i _ hlt => if_pos hlt]
  apply List.flatMap_congr
  intro i hi
  exact if_neg (Nat.not_lt.2 (mem_offsets.1 hi).1)

/-- From a cursor before which no comment begins, reading offset by offset shows the
segments between the comments, with a mark for each comment. -/
theorem flatMap_markedAt
    {comments : List Node} {cursor : Nat}
    (hsequence : InSequence comments)
    (htouches : ∀ c ∈ comments, c.touches start stop = true)
    (hstart : start ≤ stop)
    (hcursor : start ≤ cursor)
    (hlater : ∀ c ∈ comments, cursor ≤ max start c.label.startByte) :
    (offsets cursor (stop + 1)).flatMap (markedAt source comments start stop) =
      [none].intercalate ((segments source stop cursor comments).map (List.map some)) := by
  induction comments generalizing cursor with
  | nil =>
      have hlast : markedAt source [] start stop stop = [] := by
        simp [markedAt]
      have hclear : ∀ i, cursor ≤ i → i < stop →
          markedAt source [] start stop i = source[i]?.toList.map some := by
        intro i hi hlt
        exact markedAt_of_lt (Nat.le_trans hcursor hi) hlt (List.forall_mem_nil _)
      rw [flatMap_offsets_succ hlast, flatMap_offsets_eq_slice hclear, segments,
        List.map_singleton, List.intercalate_singleton]
  | cons c rest ih =>
      have htouch := htouches c List.mem_cons_self
      obtain ⟨hend, hbegin⟩ := touches_iff.1 htouch
      have hordered := hsequence.start_le_end c List.mem_cons_self
      have hfirst := hlater c List.mem_cons_self
      have hmiddle : max start c.label.startByte ≤ stop + 1 := by omega
      have hclear : ∀ i, cursor ≤ i → i < max start c.label.startByte →
          markedAt source (c :: rest) start stop i = source[i]?.toList.map some := by
        intro i hi hlt
        apply markedAt_of_lt (Nat.le_trans hcursor hi) (by omega)
        intro d hd
        rcases List.mem_cons.1 hd with rfl | hd
        · exact hlt
        · have hafter := hsequence.end_le hd
          omega
      have hslice :
          slice source cursor (max start c.label.startByte) =
            slice source cursor c.label.startByte := by
        rcases Nat.le_total start c.label.startByte with hle | hle
        · rw [Nat.max_eq_right hle]
        · -- the comment began before the region, and nothing stands before it
          rw [slice_eq_flatMap, slice_eq_flatMap, offsets_of_le (by omega),
            offsets_of_le (by omega)]
      have hrest := ih hsequence.tail (fun d hd => htouches d (List.mem_cons_of_mem c hd))
        (Nat.le_of_lt hend) fun d hd => by
          have hafter := hsequence.end_le hd
          omega
      have hne : (segments source stop c.label.endByte rest).map (List.map some) ≠ [] :=
        mt List.map_eq_nil_iff.1 (segments_ne_nil _ _ _ _)
      rw [offsets_append hfirst hmiddle, List.flatMap_append,
        flatMap_offsets_eq_slice hclear, hslice,
        flatMap_markedAt_cons hsequence htouch hstart, hrest, segments, List.map_cons,
        List.intercalate_cons_of_ne_nil hne, List.append_assoc]
      rfl

/-- Reading a region offset by offset shows the segments between its comments, with a
mark for each comment that has a part in the region. -/
theorem markedRegion_eq
    (source : Octets)
    {comments : List Node}
    (hsequence : InSequence comments)
    (hstart : start ≤ stop) :
    markedRegion source comments start stop =
      [none].intercalate
        ((segments source stop start (comments.filter (Node.touches start stop))).map
          (List.map some)) := by
  rw [markedRegion, ← List.flatMap_congr fun i hi =>
    markedAt_filter source comments stop (mem_offsets.1 hi).1]
  exact flatMap_markedAt (hsequence.filter _) (fun c hc => (List.mem_filter.1 hc).2) hstart
    (Nat.le_refl start) fun c _ => Nat.le_max_left _ _

end Cutting

section Texts

/-- The octets between marks. -/
def betweenMarks (shown : List (Option UInt8)) : List Octets :=
  (splitWhen Option.isNone shown).map List.reduceOption

theorem betweenMarks_append_none
    (xs ys : List (Option UInt8)) :
    betweenMarks (xs ++ none :: ys) = betweenMarks xs ++ betweenMarks ys := by
  rw [betweenMarks, splitWhen_append_cons xs ys rfl, List.map_append]
  rfl

theorem betweenMarks_map_some
    (octets : Octets) :
    betweenMarks (octets.map some) = [octets] := by
  have hfree : ∀ x ∈ octets.map some, x.isNone = false := by
    simp
  rw [betweenMarks, splitWhen_eq_singleton hfree]
  simp [List.reduceOption]

/-- What stands between the marks of a region are the segments between its comments. -/
theorem betweenMarks_markedRegion
    (source : Octets)
    {comments : List Node}
    (hsequence : InSequence comments)
    {start stop : Nat}
    (hstart : start ≤ stop) :
    betweenMarks (markedRegion source comments start stop) =
      segments source stop start (comments.filter (Node.touches start stop)) := by
  rw [markedRegion_eq source hsequence hstart,
    Lists.flatMap_intercalate betweenMarks_append_none
      (mt List.map_eq_nil_iff.1 (segments_ne_nil _ _ _ _)),
    List.flatMap_map, List.flatMap_congr fun octets _ => betweenMarks_map_some octets,
    List.flatMap_singleton']

/-- The text of a region is that of its octets outside the comments, in order, with a
space for each comment that has a part in the region. -/
theorem regionText_eq
    (source : Octets)
    {n : Node}
    (hsequence : InSequence (n.outermost Grammar.comments))
    {start stop : Nat}
    (hstart : start ≤ stop) :
    n.regionText source start stop =
      decode ((markedRegion source (n.outermost Grammar.comments) start stop).map
        fun x => x.getD space) := by
  have hspaced : ∀ xs ys : List (Option UInt8),
      (xs ++ none :: ys).map (fun x => x.getD space) =
        xs.map (fun x => x.getD space) ++ [space] ++ ys.map fun x => x.getD space := by
    simp
  have hplain : ∀ octets : Octets,
      (octets.map some).map (fun x => x.getD space) = octets := by
    intro octets
    rw [List.map_map]
    exact List.map_id octets
  rw [markedRegion_eq source hsequence hstart,
    Lists.apply_intercalate hspaced (mt List.map_eq_nil_iff.1 (segments_ne_nil _ _ _ _)),
    List.map_map]
  simp only [Function.comp_def, hplain, List.map_id']
  rfl

end Texts

end Tree
end HaskellTags
