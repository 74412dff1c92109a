import Scriptlet.Proofs.Token.Completeness
import Scriptlet.Proofs.Token.Filler
import Scriptlet.Proofs.Token.Unclosed

/-!
# Fillers between tokens

`inserted texts i source` is `source` with a text put in front of each of its bytes, of which the
first is number `i`, and one more behind the last. Most of these texts are empty: a text may stand
only where a token begins or ends (`IsEdge`).

There a filler changes nothing but places (`Amid.items`). What is put in front of a lexeme goes
together with the gap that is there, and what is put behind it begins with a blank, so the lexeme
ends where it ended before (`exists_lexeme_inserted`). A string without an end is the exception: it
takes in what is put behind it.

`Amid texts text c c'` is what a step keeps: both cursors stand in front of the same bytes, but those
of `c'` have the texts among them.
-/

namespace Scriptlet

open Text Lexeme

/-- The bytes from number `i` on, with a text in front of each and one behind the last. -/
def inserted (texts : Nat → List UInt8) : Nat → List UInt8 → List UInt8
  | i, [] => texts i
  | i, b :: rest => texts i ++ b :: inserted texts (i + 1) rest

/-- The place where one of the tokens begins or ends, or the source does end. -/
def IsEdge (tokens : List Token) (stop i : Nat) : Prop :=
  (∃ t ∈ tokens, i = t.span.offset ∨ i = t.span.stop) ∨ i = stop

variable {texts : Nat → List UInt8}

/-! ## Bytes -/

/-- Bytes with nothing put between them. -/
theorem inserted_append {run : List UInt8} (nonempty : run ≠ []) (rest : List UInt8) :
    ∀ {i : Nat}, (∀ k, i < k → k < i + run.length → texts k = []) →
      inserted texts i (run ++ rest)
        = texts i ++ (run ++ inserted texts (i + run.length) rest) := by
  induction run with
  | nil => exact absurd rfl nonempty
  | cons b run ih =>
    intro i quiet
    rw [List.cons_append, inserted, List.cons_append]
    cases run with
    | nil => rfl
    | cons d run =>
      have next : texts (i + 1) = [] := by
        refine quiet (i + 1) (Nat.lt_succ_self i) ?_
        simp only [List.length_cons]
        omega
      have later := ih (List.cons_ne_nil d run) (i := i + 1) fun k hk hk' => by
        refine quiet k (by omega) ?_
        simp only [List.length_cons] at hk' ⊢
        omega
      have count : i + 1 + (d :: run).length = i + (b :: d :: run).length := by
        simp only [List.length_cons]
        omega
      rw [later, next, List.nil_append, count]

/-- Behind a lexeme the source goes on as it did before, or with a blank. -/
theorem followsLike_inserted (blank : ∀ i, ∀ b ∈ (texts i).head?, Gap.isBlank b = true) (i : Nat)
    (rest : List UInt8) : FollowsLike rest (inserted texts i rest) := by
  cases htext : texts i with
  | nil =>
    refine .inl ?_
    cases rest with
    | nil => rw [inserted, htext]
    | cons b rest => rw [inserted, htext, List.nil_append, List.head?_cons, List.head?_cons]
  | cons b text =>
    refine .inr ⟨b, ?_, blank i b (by rw [htext]; rfl)⟩
    cases rest with
    | nil =>
      rw [inserted, htext]
      rfl
    | cons d rest =>
      rw [inserted, htext]
      rfl

/-- What is put in front of a lexeme goes together with the gap that is there. -/
theorem exists_gap_inserted (filler : ∀ i, IsFiller (texts i)) {i : Nat} {gap covered : List UInt8}
    (isFiller : IsFiller gap) (nonempty : covered ≠ []) (rest : List UInt8)
    (quiet : ∀ k, i < k → k < i + gap.length + covered.length → k ≠ i + gap.length →
      texts k = []) :
    ∃ gap', IsFiller gap' ∧ inserted texts i (gap ++ (covered ++ rest))
      = gap' ++ (covered ++ inserted texts (i + gap.length + covered.length) rest) := by
  have lexeme : inserted texts (i + gap.length) (covered ++ rest) = texts (i + gap.length)
      ++ (covered ++ inserted texts (i + gap.length + covered.length) rest) :=
    inserted_append nonempty rest fun k hk hk' => quiet k (by omega) hk' (by omega)
  cases gap with
  | nil => exact ⟨texts i, filler i, lexeme⟩
  | cons b gap =>
    refine ⟨texts i ++ (b :: gap ++ texts (i + (b :: gap).length)),
      (filler i).append (isFiller.append (filler _)), ?_⟩
    rw [inserted_append (List.cons_ne_nil b gap) _ fun k hk hk' => quiet k hk (by omega) (by omega),
      lexeme]
    simp only [List.append_assoc]

/-- **Fillers around a lexeme leave the lexeme as it is.** -/
theorem exists_lexeme_inserted (blank : ∀ i, ∀ b ∈ (texts i).head?, Gap.isBlank b = true)
    (filler : ∀ i, IsFiller (texts i)) {i : Nat} {gap rest : List UInt8} {l : Lexeme}
    (isGap : IsGap rest gap) (hrest : Gap.length rest = 0) (recognized : Recognized rest l)
    (notEnd : l.kind ≠ .eof)
    (quiet : ∀ k, i < k → k < i + gap.length + l.length → k ≠ i + gap.length → texts k = [])
    (last : l.unclosed = true → texts (i + gap.length + l.length) = []) :
    ∃ gap' covered behind behind', rest = covered ++ behind ∧ l.length = covered.length
      ∧ behind' = inserted texts (i + gap.length + l.length) behind
      ∧ inserted texts i (gap ++ rest) = gap' ++ (covered ++ behind')
      ∧ IsGap (covered ++ behind') gap' ∧ Gap.length (covered ++ behind') = 0
      ∧ Recognized (covered ++ behind') l := by
  have pos := (length_pos_of_recognize? (recognize?_eq_some_iff.mpr recognized) notEnd).1
  obtain ⟨covered, behind, rfl, hlen, atEnd, stable⟩ := recognized.exists_stable
  have nonempty : covered ≠ [] := List.length_pos_iff.mp (hlen ▸ pos)
  have isFiller : IsFiller gap := by
    cases covered with
    | nil => exact absurd rfl nonempty
    | cons b covered =>
      refine isGap.isFiller ?_
      rw [← Bool.not_eq_true]
      intro hb
      rw [List.cons_append, Gap.length_blank (Gap.isBlank_of_isLineEnd hb)] at hrest
      cases hrest
  rw [hlen] at quiet
  obtain ⟨gap', isFiller', parts⟩ := exists_gap_inserted filler isFiller nonempty behind quiet
  rw [← hlen] at parts
  have like := followsLike_inserted blank (i + gap.length + l.length) behind
  refine ⟨gap', covered, behind, _, rfl, hlen, rfl, parts, isFiller'.isGap _, ?_, ?_⟩
  · refine Gap.length_eq_zero_of_append nonempty ?_ hrest
    rcases like with same | ⟨b, hb, isBlank⟩
    · exact .inl same
    · refine .inr fun hs => ?_
      cases hb.symm.trans hs
      cases isBlank
  · refine stable _ like (fun hl => ?_) notEnd
    rw [atEnd hl, inserted, last hl]

/-- What is put among the bytes behind the last token leaves a gap. -/
theorem isGap_inserted (filler : ∀ i, IsFiller (texts i)) {i : Nat} {gap : List UInt8}
    (isGap : IsGap [] gap) (quiet : ∀ k, i < k → k < i + gap.length → texts k = []) :
    IsGap [] (inserted texts i gap) := by
  cases gap with
  | nil => exact (filler i).isGap []
  | cons b gap =>
    have parts := inserted_append (List.cons_ne_nil b gap) [] quiet
    rw [List.append_nil] at parts
    rw [parts]
    exact (filler i).isGap_append (isGap.append_filler (filler _))

/-! ## One step -/

namespace Cursor

/-- A cursor hands out the lexeme behind a gap. -/
theorem next_of_recognized {c : Cursor} {gap rest : List UInt8} {l : Lexeme}
    (hc : c.exhausted = false) (same : c.rest = gap ++ rest) (isGap : IsGap rest gap)
    (hrest : Gap.length rest = 0) (recognized : Recognized rest l) :
    c.next = (c.token gap.length l, c.past gap.length l) := by
  have hlen : Gap.length c.rest = gap.length := by rw [same, isGap.length_append, hrest]; rfl
  have behind : c.rest.drop gap.length = rest := by rw [same, List.drop_left]
  simp only [next, hc, Bool.false_eq_true, if_false, hlen, behind,
    recognize?_eq_some_iff.mpr recognized]

theorem items_of_isGap {c : Cursor} (hc : c.exhausted = false) (isGap : IsGap [] c.rest) :
    c.items = [] := by
  have step := next_of_recognized hc (List.append_nil _).symm isGap rfl .eof
  refine items_of_eof ?_
  rw [step]
  rfl

/-- Which token comes of a lexeme, and which defects it has, is a matter of place only. -/
theorem unplaced_token (c c' : Cursor) (skipped skipped' : Nat) (l : Lexeme) :
    Item.unplaced ⟨c'.token skipped' l, c'.defectsOf skipped' l⟩
      = Item.unplaced ⟨c.token skipped l, c.defectsOf skipped l⟩ := by
  have defects : ∀ (c : Cursor) (n : Nat), (c.defectsOf n l).map (Defect.respan fun _ => ⟨0, 0⟩)
      = if l.unclosed then [.unclosedString ⟨0, 0⟩] else [] := by
    intro c n
    rw [defectsOf]
    cases l.unclosed <;> rfl
  simp only [Item.unplaced, Item.respan, defects]
  rfl

end Cursor

/-- Of the edges in front of a cursor all but one are at the end of the next token or behind it. -/
theorem Cursor.isEdge_next {text : String} {front : List UInt8} {c : Cursor}
    (stored : bytes text = front ++ c.rest) (hc : c.exhausted = false)
    (h : c.next.1.kind ≠ .eof) {i : Nat} (edge : IsEdge c.remaining c.stop i) :
    i = c.next.1.span.offset ∨ i = c.next.1.span.stop
      ∨ c.next.1.span.stop ≤ i ∧ IsEdge c.next.2.remaining c.stop i := by
  have tiled := c.tiles_remaining front stored hc
  rw [remaining_of_ne_eof h] at tiled edge
  have order := (List.pairwise_cons.mp tiled.pairwise_spans).1
  have bound := (tiled.spells_slice (List.replicate c.offset 0) (List.length_replicate ..) _
    List.mem_cons_self).2.1
  rw [List.length_append, List.length_replicate] at bound
  rcases edge with ⟨t, ht, place⟩ | rfl
  · rcases List.mem_cons.mp ht with rfl | ht
    · exact place.imp_right .inl
    · have after := (order t ht).2
      refine .inr (.inr ⟨?_, .inl ⟨t, ht, place⟩⟩)
      rcases place with rfl | rfl
      · exact after
      · exact Nat.le_trans after (Nat.le_add_right _ _)
  · exact .inr (.inr ⟨bound, .inr rfl⟩)

/-- `c'` stands where `c` does in the source `text`, with texts among the bytes in front of it. -/
structure Amid (texts : Nat → List UInt8) (text : String) (c c' : Cursor) : Prop where
  stored : ∃ front, bytes text = front ++ c.rest ∧ front.length = c.offset
  goesOn : c.exhausted = false
  goesOn' : c'.exhausted = false
  rest : c'.rest = inserted texts c.offset c.rest
  edge : ∀ i, c.offset < i → texts i ≠ [] → IsEdge c.remaining c.stop i
  unclosed : ∀ t ∈ c.remaining, t.Unclosed (bytes text) → texts t.span.stop = []

namespace Amid

variable {text : String} {c c' : Cursor}

/-- At the end of the source there is nothing but a gap. -/
theorem items_of_eof (filler : ∀ i, IsFiller (texts i)) (h : Amid texts text c c')
    (atEnd : c.next.1.kind = .eof) : c'.items = [] := by
  refine Cursor.items_of_isGap h.goesOn' ?_
  obtain ⟨gap, rest, l, split, isGap, -, recognized, step⟩ := Cursor.next_of_open h.goesOn
  have eof : l.kind = .eof := by rwa [step] at atEnd
  obtain ⟨rfl, -⟩ := recognized.of_eof eof
  rw [List.append_nil] at split
  rw [h.rest, split]
  refine isGap_inserted filler isGap fun k hk hk' => Classical.byContradiction fun put => ?_
  rcases h.edge k hk put with ⟨t, ht, -⟩ | rfl
  · rw [Cursor.remaining_of_eof atEnd] at ht
    exact absurd ht List.not_mem_nil
  · rw [Cursor.stop, split] at hk'
    exact absurd hk' (Nat.lt_irrefl _)

/-- Nothing is put in, neither inside the gap nor inside the next token. -/
theorem quiet (h : Amid texts text c c') (more : c.next.1.kind ≠ .eof) : ∀ k, c.offset < k →
    k < c.next.1.span.stop → k ≠ c.next.1.span.offset → texts k = [] := by
  intro k hk hk' inside
  obtain ⟨front, stored, -⟩ := h.stored
  refine Classical.byContradiction fun put => ?_
  rcases Cursor.isEdge_next stored h.goesOn more (h.edge k hk put) with hb | he | ⟨he, -⟩
  · exact inside hb
  · exact absurd he (Nat.ne_of_lt hk')
  · exact absurd hk' (Nat.not_lt.mpr he)

/-- Nothing is put behind a string without an end. -/
theorem last (h : Amid texts text c c') (more : c.next.1.kind ≠ .eof) (defective : c.found ≠ []) :
    texts c.next.1.span.stop = [] := by
  obtain ⟨front, stored, place⟩ := h.stored
  rcases Cursor.found_cases stored place h.goesOn with none | ⟨-, -, unclosed⟩
  · exact absurd none defective
  · refine h.unclosed _ ?_ unclosed
    rw [Cursor.remaining_of_ne_eof more]
    exact List.mem_cons_self

/-- **Both cursors hand out the same token**, but for its place. -/
theorem next (blank : ∀ i, ∀ b ∈ (texts i).head?, Gap.isBlank b = true)
    (filler : ∀ i, IsFiller (texts i)) (h : Amid texts text c c') (more : c.next.1.kind ≠ .eof) :
    Amid texts text c.next.2 c'.next.2 ∧ c'.next.1.kind = c.next.1.kind
      ∧ Cursor.Item.unplaced ⟨c'.next.1, c'.found⟩
        = Cursor.Item.unplaced ⟨c.next.1, c.found⟩ := by
  have quiet := h.quiet more
  have last := h.last more
  obtain ⟨front, stored, -⟩ := h.stored
  obtain ⟨gap, rest, l, split, isGap, hrest, recognized, step⟩ := Cursor.next_of_open h.goesOn
  have found := Cursor.found_of_next step
  have begins : c.next.1.span.offset = c.offset + gap.length := by rw [step]; rfl
  have ends : c.next.1.span.stop = c.offset + gap.length + l.length := by rw [step]; rfl
  have offset : c.next.2.offset = c.next.1.span.stop := by rw [step]; rfl
  have notEnd : l.kind ≠ .eof := by rwa [step] at more
  have unclosed : l.unclosed = true → c.found ≠ [] := by
    intro hl
    rw [found, Cursor.defectsOf, if_pos hl]
    exact List.cons_ne_nil _ _
  rw [begins, ends] at quiet
  rw [ends] at last
  obtain ⟨gap', covered, behind, behind', rfl, hlen, same, parts, isGap', hrest', recognized'⟩ :=
    exists_lexeme_inserted blank filler isGap hrest recognized notEnd quiet fun hl =>
      last (unclosed hl)
  have split' : c'.rest = gap' ++ (covered ++ behind') := by rw [h.rest, split, parts]
  have step' := Cursor.next_of_recognized h.goesOn' split' isGap' hrest' recognized'
  have ahead : c.next.2.rest = behind := by rw [step]; exact Cursor.rest_past split hlen
  have ahead' : c'.next.2.rest = behind' := by rw [step']; exact Cursor.rest_past split' hlen
  refine ⟨⟨Cursor.stored_next h.stored, ?_, ?_, ?_, ?_, ?_⟩, ?_, ?_⟩
  · rw [step]
    exact beq_eq_false_iff_ne.mpr notEnd
  · rw [step']
    exact beq_eq_false_iff_ne.mpr notEnd
  · rw [ahead', ahead, offset, ends, same]
  · intro k hk put
    rw [Cursor.stop_next]
    rw [offset] at hk
    have begun : c.offset ≤ c.next.1.span.stop := by omega
    rcases Cursor.isEdge_next stored h.goesOn more
      (h.edge k (Nat.lt_of_le_of_lt begun hk) put) with hb | he | ⟨-, edge⟩
    · omega
    · exact absurd he (Nat.ne_of_gt hk)
    · exact edge
  · intro t ht
    refine h.unclosed t ?_
    rw [Cursor.remaining_of_ne_eof more]
    exact List.mem_cons_of_mem _ ht
  · rw [step, step']
    rfl
  · rw [found, Cursor.found_of_next step', step, step']
    exact Cursor.unplaced_token c c' _ _ l

/-- **Fillers at the edges change nothing but places.** -/
theorem items (blank : ∀ i, ∀ b ∈ (texts i).head?, Gap.isBlank b = true)
    (filler : ∀ i, IsFiller (texts i)) (c : Cursor) : ∀ c' : Cursor, Amid texts text c c' →
      c'.items.map Cursor.Item.unplaced = c.items.map Cursor.Item.unplaced := by
  induction c using Cursor.items_induction with
  | eof c atEnd =>
    intro c' h
    rw [Cursor.items_of_eof atEnd, h.items_of_eof filler atEnd]
  | step c more ih =>
    intro c' h
    obtain ⟨later, kind, same⟩ := h.next blank filler more
    rw [Cursor.items_of_ne_eof more, Cursor.items_of_ne_eof (kind ▸ more), List.map_cons,
      List.map_cons, same, ih _ later]

end Amid

end Scriptlet
