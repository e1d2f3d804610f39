import HaskellTags.Proofs.Json.Tokens

/-!
# Reading JSON back

What is written of a value is read back, and it holds no line feed.  Numbers
with a fraction are left out, and so is what JSON has no form for.  A value is
`Readable` within a depth, and its integers within the limit on digits that the
reader has.

The reader goes down with a bound on its steps and a room for nesting.
`ReadsBack` says of one value what the induction needs: whatever closes the text
after it, the value is read and the cursor stands there.
-/

namespace HaskellTags
namespace Json

open Text

section Cursors

theorem skip_of_head?
    {rest : List Char}
    (hrest : ∀ c ∈ rest.head?, isSpace c = false)
    (p : Nat) :
    Cursor.skip ⟨rest, p⟩ = ⟨rest, p⟩ := by
  cases rest with
  | nil =>
      rfl
  | cons c rest =>
      have hc := hrest c rfl
      simp [Cursor.skip, hc]

theorem skip_space
    {rest : List Char}
    (hrest : ∀ c ∈ rest.head?, isSpace c = false)
    (p : Nat) :
    Cursor.skip ⟨' ' :: rest, p⟩ = ⟨rest, p + 1⟩ := by
  cases rest with
  | nil =>
      rfl
  | cons c rest =>
      have hc := hrest c rfl
      have hspace : isSpace ' ' = true := rfl
      simp [Cursor.skip, hc, hspace]

theorem Closes.isSpace_eq_false
    {rest : List Char}
    (h : Closes rest) :
    ∀ c ∈ rest.head?, isSpace c = false := by
  intro c hc
  rcases h c hc with rfl | rfl | rfl <;> rfl

theorem readValue_text
    (limit : Option Nat)
    (bound room : Nat)
    (s : String)
    (rest : List Char)
    (p : Nat) :
    ∃ q : Nat,
      readValue limit (bound + 1) room ⟨(renderText s).toList ++ rest, p⟩ =
        .ok (.text s, ⟨rest, q⟩) := by
  obtain ⟨q, hread⟩ := readText_escapedChars p s.toList rest (p + 1) []
  refine ⟨q, ?_⟩
  simp [renderText, readValue, hread, Except.map]

theorem readValue_of_atom
    (limit : Option Nat)
    (bound room : Nat)
    {c : Char}
    (hc : c ≠ '"' ∧ c ≠ '\x7b' ∧ c ≠ '[')
    (rest : List Char)
    (p : Nat) :
    readValue limit (bound + 1) room ⟨c :: rest, p⟩ = readAtom limit ⟨c :: rest, p⟩ := by
  obtain ⟨hquote, hbrace, hbracket⟩ := hc
  unfold readValue
  split <;> simp_all

theorem readValue_bracket
    (limit : Option Nat)
    (bound room : Nat)
    {c : Char}
    (hspace : isSpace c = false)
    (hbracket : c ≠ ']')
    (rest : List Char)
    (p : Nat) :
    readValue limit (bound + 1) (room + 1) ⟨'[' :: c :: rest, p⟩ =
      readItems limit bound room [] ⟨c :: rest, p + 1⟩ := by
  have hskip : Cursor.skip ⟨c :: rest, p + 1⟩ = ⟨c :: rest, p + 1⟩ := by
    apply skip_of_head?
    rintro _ ⟨⟩
    exact hspace
  simp only [readValue, hskip]
  split
  · next hclosed =>
    cases hclosed
    exact absurd rfl hbracket
  · rfl

end Cursors

section Values

/-- Entries whose keys are texts. -/
def keyed (entries : List (String × Value)) : Entries :=
  entries.map fun e => (.text e.1, e.2)

/-- The values that are read back: no more than `room` arrays and objects are
inside each other, every object has each key once, and integers have no more
digits than the reader takes. -/
inductive Readable (limit : Option Nat) : Nat → Value → Prop
  | null {room : Nat} :
      Readable limit room .null
  | bool {room : Nat} (b : Bool) :
      Readable limit room (.scalar (.bool b))
  | int {room : Nat} (n : Int)
      (hn : Decimal.isWithin limit n = true) :
      Readable limit room (.int n)
  | text {room : Nat} (s : String) :
      Readable limit room (.text s)
  | list {room : Nat} (items : List Value)
      (hitems : ∀ v ∈ items, Readable limit room v) :
      Readable limit (room + 1) (.list items)
  | map {room : Nat} (entries : List (String × Value))
      (hkeys : (entries.map Prod.fst).Nodup)
      (hentries : ∀ e ∈ entries, Readable limit room e.2) :
      Readable limit (room + 1) (.map (keyed entries))

/-- Texts with a comma and a space between them. -/
def joined (texts : List String) : List Char :=
  [',', ' '].intercalate (texts.map String.toList)

theorem toList_renderText
    (s : String) :
    (renderText s).toList = '"' :: (s.toList.flatMap escapedChar ++ ['"']) := by
  simp [renderText]

theorem render_text
    (s : String) :
    render (.text s) = renderText s := by
  rw [Value.text, render, renderScalar]
  · rfl
  all_goals simp

theorem renderItems_eq_map
    (items : List Value) :
    renderItems items = items.map render := by
  induction items with
  | nil =>
      rfl
  | cons v items ih =>
      rw [renderItems, ih]
      rfl

theorem renderEntries_keyed
    (entries : List (String × Value)) :
    renderEntries (keyed entries) =
      entries.map fun e => renderText e.1 ++ ": " ++ render e.2 := by
  induction entries with
  | nil =>
      rfl
  | cons e entries ih =>
      rw [List.map_cons, ← ih]
      rfl

theorem toList_render_list
    (items : List Value) :
    (render (.list items)).toList = '[' :: (joined (renderItems items) ++ [']']) := by
  simp [render, joined, String.toList_intercalate]

theorem toList_render_map
    (entries : Entries) :
    (render (.map entries)).toList =
      '\x7b' :: (joined (renderEntries entries) ++ ['\x7d']) := by
  simp [render, joined, String.toList_intercalate]

theorem joined_singleton
    (text : String) :
    joined [text] = text.toList :=
  List.intercalate_singleton

theorem joined_cons_cons
    (text next : String)
    (texts : List String) :
    joined (text :: next :: texts) = text.toList ++ ',' :: ' ' :: joined (next :: texts) := by
  simp [joined, List.intercalate_cons_cons]

theorem exists_joined_cons
    (text : String)
    (texts : List String) :
    ∃ more : List Char, joined (text :: texts) = text.toList ++ more := by
  cases texts with
  | nil =>
      exact ⟨[], by rw [joined_singleton, List.append_nil]⟩
  | cons next texts =>
      exact ⟨_, joined_cons_cons text next texts⟩

/-- The first character of a written value: no space, no closing bracket and no
byte order mark. -/
def Opens (text : List Char) : Prop :=
  ∃ (c : Char) (rest : List Char),
    text = c :: rest ∧ isSpace c = false ∧ c ≠ ']' ∧ c ≠ Char.ofNat 0xFEFF

theorem Opens.append
    {text : List Char}
    (h : Opens text)
    (more : List Char) :
    Opens (text ++ more) := by
  obtain ⟨c, rest, rfl, hc⟩ := h
  exact ⟨c, rest ++ more, rfl, hc⟩

theorem Opens.isSpace_eq_false
    {text : List Char}
    (h : Opens text) :
    ∀ c ∈ text.head?, isSpace c = false := by
  obtain ⟨c, tail, rfl, hspace, -, -⟩ := h
  rintro _ ⟨⟩
  exact hspace

theorem opens_toString
    (n : Int) :
    Opens (toString n).toList := by
  obtain ⟨c, rest, htext, hne⟩ := exists_toString_int_eq_cons n
  refine ⟨c, rest, htext, ?_, hne _ (by decide) rfl, hne _ (by decide) rfl⟩
  simp [isSpace, hne]

theorem opens_of_readable
    {limit : Option Nat} {room : Nat} {v : Value}
    (h : Readable limit room v) :
    Opens (render v).toList := by
  cases h with
  | null =>
      exact ⟨'n', _, rfl, rfl, by decide, by decide⟩
  | bool b =>
      cases b with
      | false =>
          exact ⟨'f', _, rfl, rfl, by decide, by decide⟩
      | true =>
          exact ⟨'t', _, rfl, rfl, by decide, by decide⟩
  | int n hn =>
      have hint : render (.int n) = toString n := rfl
      rw [hint]
      exact opens_toString n
  | text s =>
      rw [render_text, toList_renderText]
      exact ⟨'"', _, rfl, rfl, by decide, by decide⟩
  | list items hitems =>
      rw [toList_render_list]
      exact ⟨'[', _, rfl, rfl, by decide, by decide⟩
  | map entries hkeys hentries =>
      rw [toList_render_map]
      exact ⟨'\x7b', _, rfl, rfl, by decide, by decide⟩

end Values

section Objects

theorem set_of_not_mem
    {key : String} {entries : List (String × Value)}
    (hkey : key ∉ entries.map Prod.fst)
    (value : Value) :
    Entries.set (.text key) value (keyed entries) = keyed (entries ++ [(key, value)]) := by
  induction entries with
  | nil =>
      rfl
  | cons e entries ih =>
      rw [List.map_cons, List.mem_cons, not_or] at hkey
      have hother : Scalar.sameKey (.text e.1) (.text key) = false := by
        simpa [Scalar.sameKey] using Ne.symm hkey.1
      have hrest := ih hkey.2
      simp only [keyed, List.map_cons, List.cons_append] at hrest ⊢
      rw [Entries.set, hother, hrest]
      rfl

/-- Entries with different keys are kept as they are. -/
theorem ofList_keyed
    {entries : List (String × Value)}
    (hkeys : (entries.map Prod.fst).Nodup) :
    Entries.ofList (keyed entries) = keyed entries := by
  have hfold :
      ∀ before after : List (String × Value),
        ((before ++ after).map Prod.fst).Nodup →
        (keyed after).foldl (fun es e => Entries.set e.1 e.2 es) (keyed before) =
          keyed (before ++ after) := by
    intro before after hnodup
    induction after generalizing before with
    | nil =>
        simp [keyed]
    | cons e after ih =>
        have hsplit : before ++ e :: after = before ++ [e] ++ after := by simp
        have hfresh : e.1 ∉ before.map Prod.fst := by
          rw [List.map_append, List.nodup_append] at hnodup
          intro hmem
          exact hnodup.2.2 e.1 hmem e.1 List.mem_cons_self rfl
        rw [hsplit] at hnodup ⊢
        rw [← ih (before ++ [e]) hnodup, ← set_of_not_mem hfresh e.2]
        rfl
  exact hfold [] entries hkeys

end Objects

section ReadingBack

variable {limit : Option Nat} {room : Nat}

/-- A value is read back from what is written of it, wherever the text closes
after it. -/
def ReadsBack (limit : Option Nat) (room : Nat) (v : Value) : Prop :=
  ∀ (bound : Nat) (rest : List Char) (p : Nat),
    (render v).toList.length ≤ bound → Closes rest →
    ∃ q : Nat,
      readValue limit bound room ⟨(render v).toList ++ rest, p⟩ = .ok (v, ⟨rest, q⟩)

theorem readItems_joined
    {items : List Value}
    (hne : items ≠ [])
    (hopens : ∀ v ∈ items, Opens (render v).toList)
    (hitems : ∀ v ∈ items, ReadsBack limit room v)
    {bound : Nat}
    (hbound : (joined (renderItems items)).length < bound)
    (read : List Value)
    (rest : List Char)
    (p : Nat) :
    ∃ q : Nat,
      readItems limit bound room read ⟨joined (renderItems items) ++ ']' :: rest, p⟩ =
        .ok (.list (read.reverse ++ items), ⟨rest, q⟩) := by
  induction items generalizing bound read p with
  | nil =>
      exact absurd rfl hne
  | cons v items ih =>
      obtain ⟨bound, rfl⟩ : ∃ b, bound = b + 1 := ⟨bound - 1, by omega⟩
      obtain ⟨hv, hmore⟩ := List.forall_mem_cons.1 hitems
      obtain ⟨-, hopensMore⟩ := List.forall_mem_cons.1 hopens
      cases items with
      | nil =>
          have hcloses : Closes (']' :: rest) := .cons (by simp) rest
          have hlength : (render v).toList.length ≤ bound := by
            simp only [renderItems, joined_singleton] at hbound
            omega
          obtain ⟨q, hread⟩ := hv bound (']' :: rest) p hlength hcloses
          refine ⟨q + 1, ?_⟩
          simp only [renderItems, joined_singleton, readItems, hread,
            skip_of_head? hcloses.isSpace_eq_false]
          simp
      | cons w items =>
          have htext : joined (renderItems (v :: w :: items)) =
              (render v).toList ++ ',' :: ' ' :: joined (renderItems (w :: items)) := by
            simp only [renderItems, joined_cons_cons]
          have hcloses :
              Closes (',' :: ' ' :: (joined (renderItems (w :: items)) ++ ']' :: rest)) :=
            .cons (by simp) _
          have hnext : Opens (joined (renderItems (w :: items)) ++ ']' :: rest) := by
            obtain ⟨more, hjoined⟩ := exists_joined_cons (render w) (renderItems items)
            rw [renderItems, hjoined, List.append_assoc]
            exact (hopensMore w List.mem_cons_self).append _
          rw [htext, List.length_append, List.length_cons, List.length_cons] at hbound
          obtain ⟨q, hread⟩ := hv bound _ p (by omega) hcloses
          have hrestBound : (joined (renderItems (w :: items))).length < bound := by
            omega
          obtain ⟨q', hrest⟩ :=
            ih (by simp) hopensMore hmore hrestBound (v :: read) (q + 1 + 1)
          refine ⟨q', ?_⟩
          rw [htext, List.append_assoc]
          simp only [List.cons_append, readItems, hread,
            skip_of_head? hcloses.isSpace_eq_false, skip_space hnext.isSpace_eq_false, hrest]
          simp

/-- The characters of an entry. -/
def entryChars (key : String) (v : Value) : List Char :=
  '"' :: (key.toList.flatMap escapedChar ++ '"' :: ':' :: ' ' :: (render v).toList)

theorem toList_renderEntry
    (key : String)
    (v : Value) :
    (renderText (Scalar.plain (.text key)) ++ ": " ++ render v).toList = entryChars key v := by
  simp [renderText, Scalar.plain, entryChars]

theorem exists_joined_keyed
    (e : String × Value)
    (entries : List (String × Value)) :
    ∃ more : List Char,
      joined (renderEntries (keyed (e :: entries))) = entryChars e.1 e.2 ++ more := by
  rw [← toList_renderEntry]
  exact exists_joined_cons _ (renderEntries (keyed entries))

/-- The key and the value of an entry are read one after the other. -/
theorem exists_readText_readValue
    {v : Value} {rest : List Char} {bound : Nat}
    (hv : ReadsBack limit room v)
    (hbound : (render v).toList.length ≤ bound)
    (hrest : Closes rest)
    (key : String)
    (p : Nat) :
    ∃ p₁ q : Nat,
      readText p
          (key.toList.flatMap escapedChar ++ '"' :: ':' :: ' ' :: ((render v).toList ++ rest))
          0 (p + 1) [] =
        .ok (key, ⟨':' :: ' ' :: ((render v).toList ++ rest), p₁⟩) ∧
      readValue limit bound room ⟨(render v).toList ++ rest, p₁ + 1 + 1⟩ =
        .ok (v, ⟨rest, q⟩) := by
  obtain ⟨p₁, hkey⟩ :=
    readText_escapedChars p key.toList (':' :: ' ' :: ((render v).toList ++ rest)) (p + 1) []
  obtain ⟨q, hvalue⟩ := hv bound rest (p₁ + 1 + 1) hbound hrest
  refine ⟨p₁, q, ?_, hvalue⟩
  rw [hkey, List.reverse_nil, List.nil_append, String.ofList_toList]

theorem isSpace_colon
    (rest : List Char) :
    ∀ c ∈ (':' :: rest).head?, isSpace c = false := by
  rintro _ ⟨⟩
  rfl

/-- After the last entry the object closes. -/
theorem readEntries_last
    {v : Value} {bound : Nat}
    (hopens : Opens (render v).toList)
    (hv : ReadsBack limit room v)
    (hbound : (render v).toList.length ≤ bound)
    (key : String)
    (read : Entries)
    (rest : List Char)
    (p : Nat) :
    ∃ q : Nat,
      readEntries limit (bound + 1) room read ⟨entryChars key v ++ '\x7d' :: rest, p⟩ =
        .ok (.map (Entries.ofList ((.text key, v) :: read).reverse), ⟨rest, q⟩) := by
  have hrest : Closes ('\x7d' :: rest) := .cons (.inr (.inr rfl)) rest
  obtain ⟨p₁, q, hkey, hvalue⟩ := exists_readText_readValue hv hbound hrest key p
  refine ⟨q + 1, ?_⟩
  simp only [entryChars, List.cons_append, List.append_assoc, readEntries, hkey,
    skip_of_head? (isSpace_colon _), skip_space (hopens.append _).isSpace_eq_false, hvalue,
    skip_of_head? hrest.isSpace_eq_false]

/-- After any other entry the next one follows. -/
theorem readEntries_more
    {v : Value} {bound : Nat} {rest : List Char}
    (hopens : Opens (render v).toList)
    (hv : ReadsBack limit room v)
    (hbound : (render v).toList.length ≤ bound)
    (hnext : Opens rest)
    (key : String)
    (read : Entries)
    (p : Nat) :
    ∃ q : Nat,
      readEntries limit (bound + 1) room read ⟨entryChars key v ++ ',' :: ' ' :: rest, p⟩ =
        readEntries limit bound room ((.text key, v) :: read) ⟨rest, q⟩ := by
  have hrest : Closes (',' :: ' ' :: rest) := .cons (.inl rfl) _
  obtain ⟨p₁, q, hkey, hvalue⟩ := exists_readText_readValue hv hbound hrest key p
  refine ⟨q + 1 + 1, ?_⟩
  simp only [entryChars, List.cons_append, List.append_assoc, readEntries, hkey,
    skip_of_head? (isSpace_colon _), skip_space (hopens.append _).isSpace_eq_false, hvalue,
    skip_of_head? hrest.isSpace_eq_false, skip_space hnext.isSpace_eq_false]

theorem readEntries_joined
    {entries : List (String × Value)}
    (hne : entries ≠ [])
    (hopens : ∀ e ∈ entries, Opens (render e.2).toList)
    (hentries : ∀ e ∈ entries, ReadsBack limit room e.2)
    {bound : Nat}
    (hbound : (joined (renderEntries (keyed entries))).length ≤ bound)
    (read : Entries)
    (rest : List Char)
    (p : Nat) :
    ∃ q : Nat,
      readEntries limit bound room read
          ⟨joined (renderEntries (keyed entries)) ++ '\x7d' :: rest, p⟩ =
        .ok (.map (Entries.ofList (read.reverse ++ keyed entries)), ⟨rest, q⟩) := by
  induction entries generalizing bound read p with
  | nil =>
      exact absurd rfl hne
  | cons e entries ih =>
      obtain ⟨hv, hmore⟩ := List.forall_mem_cons.1 hentries
      obtain ⟨hopen, hopensMore⟩ := List.forall_mem_cons.1 hopens
      have hentry : (entryChars e.1 e.2).length = (render e.2).toList.length +
          (e.1.toList.flatMap escapedChar).length + 4 := by
        simp only [entryChars, List.length_cons, List.length_append]
        omega
      cases entries with
      | nil =>
          have htext : joined (renderEntries (keyed [e])) = entryChars e.1 e.2 := by
            rw [← toList_renderEntry]
            exact joined_singleton _
          rw [htext] at hbound ⊢
          obtain ⟨bound, rfl⟩ : ∃ b, bound = b + 1 := ⟨bound - 1, by omega⟩
          have hlength : (render e.2).toList.length ≤ bound := by
            omega
          obtain ⟨q, hread⟩ := readEntries_last hopen hv hlength e.1 read rest p
          refine ⟨q, ?_⟩
          rw [hread]
          simp [keyed]
      | cons f entries =>
          have htext : joined (renderEntries (keyed (e :: f :: entries))) =
              entryChars e.1 e.2 ++ ',' :: ' ' ::
                joined (renderEntries (keyed (f :: entries))) := by
            rw [← toList_renderEntry]
            exact joined_cons_cons _ _ _
          have hnext :
              Opens (joined (renderEntries (keyed (f :: entries))) ++ '\x7d' :: rest) := by
            obtain ⟨more, hjoined⟩ := exists_joined_keyed f entries
            rw [hjoined]
            exact ⟨'"', _, rfl, rfl, by decide, by decide⟩
          rw [htext, List.length_append, List.length_cons, List.length_cons] at hbound
          obtain ⟨bound, rfl⟩ : ∃ b, bound = b + 1 := ⟨bound - 1, by omega⟩
          have hlength : (render e.2).toList.length ≤ bound := by
            omega
          have hrestBound :
              (joined (renderEntries (keyed (f :: entries)))).length ≤ bound := by
            omega
          obtain ⟨q, hread⟩ := readEntries_more hopen hv hlength hnext e.1 read p
          obtain ⟨q', hrest⟩ :=
            ih (by simp) hopensMore hmore hrestBound ((.text e.1, e.2) :: read) q
          refine ⟨q', ?_⟩
          rw [htext, List.append_assoc, List.cons_append, List.cons_append, hread, hrest]
          simp [keyed]

theorem readsBack_text
    (s : String) :
    ReadsBack limit room (.text s) := by
  intro bound rest p hbound _
  rw [render_text] at hbound ⊢
  rw [toList_renderText, List.length_cons] at hbound
  obtain ⟨bound, rfl⟩ : ∃ b, bound = b + 1 := ⟨bound - 1, by omega⟩
  exact readValue_text limit bound room s rest p

theorem readsBack_word
    {v : Value} {c : Char} {word : List Char}
    (hrender : (render v).toList = c :: word)
    (hc : c ≠ '"' ∧ c ≠ '\x7b' ∧ c ≠ '[')
    (hread : ∀ rest p, Closes rest →
      ∃ q : Nat, readAtom limit ⟨c :: (word ++ rest), p⟩ = .ok (v, ⟨rest, q⟩)) :
    ReadsBack limit room v := by
  intro bound rest p hbound hrest
  rw [hrender] at hbound ⊢
  rw [List.length_cons] at hbound
  obtain ⟨bound, rfl⟩ : ∃ b, bound = b + 1 := ⟨bound - 1, by omega⟩
  rw [List.cons_append, readValue_of_atom limit bound room hc]
  exact hread rest p hrest

theorem readsBack_int
    {n : Int}
    (hn : Decimal.isWithin limit n = true) :
    ReadsBack limit room (.int n) := by
  have hrender : render (.int n) = toString n := rfl
  obtain ⟨c, word, htext, hne⟩ := exists_toString_int_eq_cons n
  have hc : c ≠ '"' ∧ c ≠ '\x7b' ∧ c ≠ '[' :=
    ⟨hne _ (by decide) rfl, hne _ (by decide) rfl, hne _ (by decide) rfl⟩
  refine readsBack_word (hrender ▸ htext) hc ?_
  intro rest p hrest
  rw [← List.cons_append, ← htext]
  exact readAtom_toString limit hn hrest p

theorem readsBack_list
    {items : List Value}
    (hopens : ∀ v ∈ items, Opens (render v).toList)
    (hitems : ∀ v ∈ items, ReadsBack limit room v) :
    ReadsBack limit (room + 1) (.list items) := by
  intro bound rest p hbound _
  rw [toList_render_list] at hbound ⊢
  simp only [List.length_cons, List.length_append, List.length_nil] at hbound
  obtain ⟨bound, rfl⟩ : ∃ b, bound = b + 1 := ⟨bound - 1, by omega⟩
  cases items with
  | nil =>
      exact ⟨p + 1 + 1, rfl⟩
  | cons v items =>
      have hinner : Opens (joined (renderItems (v :: items)) ++ ']' :: rest) := by
        obtain ⟨more, hjoined⟩ := exists_joined_cons (render v) (renderItems items)
        rw [renderItems, hjoined, List.append_assoc]
        exact (hopens v List.mem_cons_self).append _
      have hlength : (joined (renderItems (v :: items))).length < bound := by
        omega
      obtain ⟨q, hread⟩ :=
        readItems_joined (by simp) hopens hitems hlength [] rest (p + 1)
      obtain ⟨c, tail, htext, hspace, hbracket, -⟩ := hinner
      rw [htext] at hread
      refine ⟨q, ?_⟩
      rw [List.cons_append, List.append_assoc, List.singleton_append, htext,
        readValue_bracket limit bound room hspace hbracket]
      exact hread

theorem readsBack_map
    {entries : List (String × Value)}
    (hkeys : (entries.map Prod.fst).Nodup)
    (hopens : ∀ e ∈ entries, Opens (render e.2).toList)
    (hentries : ∀ e ∈ entries, ReadsBack limit room e.2) :
    ReadsBack limit (room + 1) (.map (keyed entries)) := by
  intro bound rest p hbound _
  rw [toList_render_map] at hbound ⊢
  simp only [List.length_cons, List.length_append, List.length_nil] at hbound
  obtain ⟨bound, rfl⟩ : ∃ b, bound = b + 1 := ⟨bound - 1, by omega⟩
  cases entries with
  | nil =>
      exact ⟨p + 1 + 1, rfl⟩
  | cons e entries =>
      have hlength : (joined (renderEntries (keyed (e :: entries)))).length ≤ bound := by
        omega
      obtain ⟨q, hread⟩ :=
        readEntries_joined (by simp) hopens hentries hlength [] rest (p + 1)
      obtain ⟨more, hinner⟩ := exists_joined_keyed e entries
      rw [List.reverse_nil, List.nil_append, ofList_keyed hkeys, hinner] at hread
      refine ⟨q, ?_⟩
      rw [hinner, List.cons_append, List.append_assoc, List.singleton_append]
      exact hread

theorem readsBack_of_readable
    {v : Value}
    (h : Readable limit room v) :
    ReadsBack limit room v := by
  induction h with
  | null =>
      exact readsBack_word rfl (by decide) fun rest p _ => ⟨_, rfl⟩
  | bool b =>
      cases b with
      | false =>
          exact readsBack_word rfl (by decide) fun rest p _ => ⟨_, rfl⟩
      | true =>
          exact readsBack_word rfl (by decide) fun rest p _ => ⟨_, rfl⟩
  | int n hn =>
      exact readsBack_int hn
  | text s =>
      exact readsBack_text s
  | list items hitems ih =>
      exact readsBack_list (fun v hv => opens_of_readable (hitems v hv)) ih
  | map entries hkeys hentries ih =>
      exact readsBack_map hkeys (fun e he => opens_of_readable (hentries e he)) ih

/-- What is written of a value is read back as this value. -/
theorem parseWithin_render
    {v : Value}
    (h : Readable limit depthLimit v) :
    parseWithin limit (render v) = .ok v := by
  obtain ⟨c, tail, htext, hspace, -, hmark⟩ := opens_of_readable h
  obtain ⟨q, hread⟩ :=
    readsBack_of_readable h (2 * (render v).toList.length + 2) [] 0 (by omega) nofun
  have hskip : Cursor.skip ⟨(render v).toList, 0⟩ = ⟨(render v).toList, 0⟩ := by
    apply skip_of_head?
    rw [htext]
    rintro _ ⟨⟩
    exact hspace
  have hhead : (render v).toList.head? ≠ some (Char.ofNat 0xFEFF) := by
    rw [htext]
    simpa using hmark
  rw [List.append_nil] at hread
  simp only [parseWithin, parseChars, if_neg hhead, hskip, hread]
  rfl

end ReadingBack

section OneLine

theorem lineFeed_not_mem_joined
    {texts : List String}
    (htexts : ∀ text ∈ texts, '\n' ∉ text.toList) :
    '\n' ∉ joined texts := by
  induction texts with
  | nil =>
      decide
  | cons text texts ih =>
      obtain ⟨htext, hrest⟩ := List.forall_mem_cons.1 htexts
      cases texts with
      | nil =>
          rw [joined_singleton]
          exact htext
      | cons next texts =>
          rw [joined_cons_cons]
          simpa using ⟨htext, ih hrest⟩

theorem lineFeed_not_mem_renderText
    (s : String) :
    '\n' ∉ (renderText s).toList := by
  rw [toList_renderText]
  intro hfeed
  simp only [List.mem_cons, List.mem_append, List.mem_flatMap, List.not_mem_nil,
    or_false] at hfeed
  rcases hfeed with hquote | ⟨c, -, hc⟩ | hquote
  · cases hquote
  · exact lineFeed_not_mem_escapedChar c hc
  · cases hquote

/-- A value is written on one line. -/
theorem lineFeed_not_mem_render
    {limit : Option Nat} {room : Nat} {v : Value}
    (h : Readable limit room v) :
    '\n' ∉ (render v).toList := by
  induction h with
  | null =>
      decide
  | bool b =>
      cases b <;> decide
  | int n hn =>
      exact not_mem_toString_int (by decide) rfl n
  | text s =>
      rw [render_text]
      exact lineFeed_not_mem_renderText s
  | list items hitems ih =>
      have hjoined : '\n' ∉ joined (renderItems items) := by
        apply lineFeed_not_mem_joined
        intro text htext
        rw [renderItems_eq_map] at htext
        obtain ⟨v, hv, rfl⟩ := List.mem_map.1 htext
        exact ih v hv
      rw [toList_render_list]
      simpa using hjoined
  | map entries hkeys hentries ih =>
      have hjoined : '\n' ∉ joined (renderEntries (keyed entries)) := by
        apply lineFeed_not_mem_joined
        intro text htext
        rw [renderEntries_keyed] at htext
        obtain ⟨e, he, rfl⟩ := List.mem_map.1 htext
        have hkey := lineFeed_not_mem_renderText e.1
        have hvalue := ih e he
        simpa using ⟨hkey, hvalue⟩
      rw [toList_render_map]
      simpa using hjoined

end OneLine

end Json
end HaskellTags
