import Chunkwise.Proofs.BoundaryChunks.Chunker
import Chunkwise.Proofs.Declaration
import Chunkwise.Proofs.Markdown

namespace Chunkwise

variable {t : Text} {o : Options} {m : Int}

theorem LineChunks.ofText_of_nonpos (t : Text) (overlap : Int) (h : m ≤ 0) :
    ofText t m overlap = .error (.maxLinesNotPositive m) := by
  rw [ofText, Stride.ofLines, if_pos h]
  rfl

namespace DeclarationChunker

theorem cutDeclaration_eq_nil {ix : LineIndex} {reach : Reach} {minLines : Int} {d : Declaration}
    {chunks : List Chunk} (h : m ≤ 0) (hcut : cutDeclaration ix reach m minLines d = .ok chunks) :
    chunks = [] := by
  have hsize := d.span.size_pos
  rw [cutDeclaration, if_pos (by omega)] at hcut
  by_cases hzero : m = 0
  · rw [hzero, Span.pieces_zero] at hcut
    cases hcut
  · rw [Span.pieces_of_neg _ (by omega)] at hcut
    cases hcut
    rfl

theorem declarationChunks_eq_nil {reach : Reach} {minLines : Int} {chunks : List Chunk} (h : m ≤ 0)
    (hchunks : declarationChunks reach m minLines t = .ok chunks) : chunks = [] := by
  apply List.eq_nil_iff_forall_not_mem.mpr
  intro x hx
  obtain ⟨d, -, part, hcut, hpart⟩ := (mem_flatten_mapM_iff hchunks).mp hx
  rw [cutDeclaration_eq_nil h hcut] at hpart
  cases hpart

theorem chunk_of_nonpos (t : Text) (o : Options) (h : maxLines o ≤ 0) :
    chunk t o = .error (.maxLinesNotPositive (maxLines o)) := by
  rw [chunk]
  split
  · next x xs hchunks => cases declarationChunks_eq_nil h hchunks
  · exact LineChunks.ofText_of_nonpos t _ h

end DeclarationChunker

namespace BoundaryChunks

open Boundary

variable {c : Setting} {s : Sweep} {b : Boundary} {bs : List Boundary}

theorem step_of_hidden (h : ¬ b.Visible c.index.lineCount) : s.step c b = .ok s := by
  rw [Sweep.step]
  split
  · rfl
  · next span hvisible => exact absurd (visible_of_eq_some hvisible).1 h

theorem foldlM_of_hidden (h : ∀ b ∈ bs, ¬ b.Visible c.index.lineCount) (s : Sweep) :
    bs.foldlM (Sweep.step c) s = .ok s := by
  induction bs with
  | nil => rfl
  | cons b bs ih =>
      obtain ⟨hb, hbs⟩ := List.forall_mem_cons.mp h
      rw [List.foldlM_cons, step_of_hidden hb]
      exact ih hbs

theorem sweep_of_hidden (h : ∀ b ∈ bs, ¬ b.Visible c.index.lineCount) : sweep c bs = .ok [] := by
  rw [sweep, foldlM_of_hidden fun b hb => h b (List.mem_mergeSort.mp hb)]
  rfl

theorem step_of_neg (hmax : c.maxLines < 0) (hgroup : s.group = none) (hchunks : s.chunks = #[]) :
    ∃ s', s.step c b = .ok s' ∧ s'.group = none ∧ s'.chunks = #[] := by
  rw [Sweep.step]
  split
  · exact ⟨s, rfl, hgroup, hchunks⟩
  · next span hvisible =>
      have hsize := span.size_pos
      rw [Sweep.place, if_pos (by omega), cutBoundary, Span.pieces_of_neg _ hmax]
      exact ⟨_, rfl, rfl, by simp [Sweep.closed, hgroup, hchunks]⟩

theorem sweep_of_neg (hmax : c.maxLines < 0) (bs : List Boundary) : sweep c bs = .ok [] := by
  obtain ⟨s, hrun, hgroup, hchunks⟩ := exists_foldlM_ok
    (fun _ s => s.group = none ∧ s.chunks = #[]) (bs.mergeSort precedes) (s := ({} : Sweep))
    ⟨rfl, rfl⟩ fun _ _ _ _ _ hs => step_of_neg hmax hs.1 hs.2
  rw [sweep, hrun]
  simp [Except.map, Sweep.finish, Sweep.closed, hgroup, hchunks]

theorem step_of_zero (hmax : c.maxLines = 0) (h : b.Visible c.index.lineCount) :
    Sweep.step c {} b = .error .divisionByZero := by
  have hcovered : Sweep.covered {} = 0 := Sweep.covered_of_none rfl
  rw [Sweep.step, hcovered]
  split
  · next hnone => exact absurd h (not_visible_of_eq_none hnone)
  · next span hvisible =>
      have hsize := span.size_pos
      rw [Sweep.place, if_pos (by omega), cutBoundary, hmax, Span.pieces_zero]
      rfl

theorem foldlM_of_zero (hmax : c.maxLines = 0) (h : ∃ b ∈ bs, b.Visible c.index.lineCount) :
    bs.foldlM (Sweep.step c) {} = .error .divisionByZero := by
  induction bs with
  | nil => simp at h
  | cons b bs ih =>
      rw [List.foldlM_cons]
      by_cases hb : b.Visible c.index.lineCount
      · rw [step_of_zero hmax hb]
        rfl
      · rw [List.exists_mem_cons_iff] at h
        rw [step_of_hidden hb]
        exact ih (h.resolve_left hb)

theorem sweep_of_zero (hmax : c.maxLines = 0) (h : ∃ b ∈ bs, b.Visible c.index.lineCount) :
    sweep c bs = .error .divisionByZero := by
  obtain ⟨b, hb, hvisible⟩ := h
  rw [sweep, foldlM_of_zero hmax ⟨b, List.mem_mergeSort.mpr hb, hvisible⟩]
  rfl

end BoundaryChunks

namespace BoundaryChunker

open Boundary BoundaryChunks

theorem ofBoundaries_of_nonpos (language : String) (t : Text) (bs : List Boundary) (minLines : Int)
    (preserveContext : Bool) (h : m ≤ 0) :
    ofBoundaries language t bs m minLines preserveContext =
      if m = 0 ∧ ∃ b ∈ bs, b.Visible t.lines.length then .error .divisionByZero else .ok [] := by
  rw [ofBoundaries, ← LineIndex.lineCount_ofText t]
  by_cases hfail : m = 0 ∧ ∃ b ∈ bs, b.Visible (LineIndex.ofText t).lineCount
  · have hsweep : sweep ⟨LineIndex.ofText t, m, minLines, language⟩ bs = .error .divisionByZero :=
      sweep_of_zero hfail.1 hfail.2
    rw [if_pos hfail, hsweep]
    rfl
  · have hsweep : sweep ⟨LineIndex.ofText t, m, minLines, language⟩ bs = .ok [] := by
      by_cases hzero : m = 0
      · apply sweep_of_hidden
        intro b hb hvisible
        exact hfail ⟨hzero, b, hb, hvisible⟩
      · apply sweep_of_neg
        change m < 0
        omega
    rw [if_neg hfail, hsweep]
    cases preserveContext with
    | false => rfl
    | true => rfl

theorem chunk_of_nonpos (k : BoundaryChunker) (path : String) (o : Options)
    (hlength : t.length ≤ maxTextLength) (h : maxLines o ≤ 0) :
    k.chunk t path o =
      if k.boundaries t = [] then .error (.maxLinesNotPositive (maxLines o))
      else if maxLines o = 0 ∧ ∃ b ∈ k.boundaries t, b.Visible t.lines.length then
        .error .divisionByZero
      else .ok [] := by
  rw [k.chunk_eq path o hlength]
  by_cases hnil : k.boundaries t = []
  · rw [if_pos hnil, chunkText_of_nil o hnil]
    exact LineChunks.ofText_of_nonpos t _ h
  · rw [if_neg hnil, chunkText_of_ne_nil o hnil]
    exact ofBoundaries_of_nonpos _ t _ _ _ h

end BoundaryChunker

namespace Markdown

theorem sectionChunks_of_silent {minLines : Int}
    (h : m < 0 ∨ ∀ x ∈ sections t, ¬ x.Kept t minLines) : sectionChunks t m minLines = .ok [] := by
  have hcut : ∀ x ∈ sections t, cutSection (LineIndex.ofText t) m minLines x = .ok [] := by
    intro x hx
    rw [cutSection_eq]
    split
    · next hkept =>
        rcases h with h | h
        · rw [Span.pieces_of_neg _ h]
          rfl
        · exact absurd hkept (h x hx)
    · rfl
  obtain ⟨parts, hparts⟩ := exists_mapM_ok (sections t) fun x hx => ⟨_, hcut x hx⟩
  rw [sectionChunks, hparts]
  change Except.ok parts.flatten = _
  rw [List.flatten_eq_nil_iff.mpr]
  intro part hpart
  obtain ⟨x, hx, heq⟩ := (mem_mapM_iff hparts).mp hpart
  exact Except.ok.inj (heq.symm.trans (hcut x hx))

theorem sectionChunks_of_zero {minLines : Int} (h : ∃ x ∈ sections t, x.Kept t minLines) :
    sectionChunks t 0 minLines = .error .divisionByZero := by
  have hkept : ∀ x ∈ sections t, x.Kept t minLines →
      cutSection (LineIndex.ofText t) 0 minLines x = .error .divisionByZero := by
    intro x _ hx
    rw [cutSection_eq, if_pos hx, Span.pieces_zero]
    rfl
  have hfail : (sections t).mapM (cutSection (LineIndex.ofText t) 0 minLines) =
      .error .divisionByZero := by
    apply mapM_eq_error
    · intro x hx
      by_cases hlong : x.Kept t minLines
      · exact .inl (hkept x hx hlong)
      · exact .inr ⟨[], by rw [cutSection_eq, if_neg hlong]⟩
    · obtain ⟨x, hx, hlong⟩ := h
      exact ⟨x, hx, hkept x hx hlong⟩
  rw [sectionChunks, hfail]
  rfl

def CutsSections (t : Text) (o : Options) : Prop :=
  (o.byHeadings.getD true && !t.allBlank) = true ∧ ∃ x ∈ sections t, x.Kept t (minLines o)

instance (t : Text) (o : Options) : Decidable (CutsSections t o) :=
  inferInstanceAs (Decidable (_ ∧ _))

theorem coverChunks_of_nonpos (t : Text) (o : Options) (h : maxLines o ≤ 0) :
    coverChunks t o =
      if maxLines o = 0 ∧ CutsSections t o then .error .divisionByZero
      else .error (.maxLinesNotPositive (maxLines o)) := by
  rw [coverChunks_eq]
  by_cases hfail : maxLines o = 0 ∧ CutsSections t o
  · rw [if_pos hfail, if_pos hfail.2.1, hfail.1, sectionChunks_of_zero hfail.2.2]
    rfl
  · have hfound : (if o.byHeadings.getD true && !t.allBlank then
        sectionChunks t (maxLines o) (minLines o) else .ok []) = .ok [] := by
      by_cases hheadings : (o.byHeadings.getD true && !t.allBlank) = true
      · rw [if_pos hheadings]
        apply sectionChunks_of_silent
        by_cases hzero : maxLines o = 0
        · exact .inr fun x hx hkept => hfail ⟨hzero, hheadings, x, hx, hkept⟩
        · exact .inl (by omega)
      · exact if_neg hheadings
    rw [if_neg hfail, hfound]
    exact LineChunks.ofText_of_nonpos t _ h

theorem chunk_of_nonpos (t : Text) (o : Options) (h : maxLines o ≤ 0) :
    chunk t o =
      if maxLines o = 0 ∧ CutsSections t o then .error .divisionByZero
      else .error (.maxLinesNotPositive (maxLines o)) := by
  rw [chunk, coverChunks_of_nonpos t o h]
  split
  · rfl
  · rfl

end Markdown

theorem chunk_of_width_not_positive (t : Text) (o : Options) (hm : o.maxLines = some m) (h : m ≤ 0) :
    LineChunks.chunk t o = .error (.maxLinesNotPositive m) ∧
    DeclarationChunker.chunk t o = .error (.maxLinesNotPositive m) ∧
    (∀ (k : BoundaryChunker) (path : String), t.length ≤ BoundaryChunker.maxTextLength →
      k.chunk t path o =
        if k.boundaries t = [] then .error (.maxLinesNotPositive m)
        else if m = 0 ∧ ∃ b ∈ k.boundaries t, b.Visible t.lines.length then .error .divisionByZero
        else .ok []) ∧
    Markdown.chunk t o =
      if m = 0 ∧ Markdown.CutsSections t o then .error .divisionByZero
      else .error (.maxLinesNotPositive m) := by
  have hgiven : ∀ default : Int, o.maxLines.getD default = m := by simp [hm]
  refine ⟨?_, ?_, ?_, ?_⟩
  · rw [LineChunks.chunk, LineChunks.maxLines, hgiven]
    exact LineChunks.ofText_of_nonpos t _ h
  · have hchunk := DeclarationChunker.chunk_of_nonpos t o
    rw [DeclarationChunker.maxLines, hgiven] at hchunk
    exact hchunk h
  · intro k path hlength
    have hchunk := k.chunk_of_nonpos path o hlength
    rw [BoundaryChunker.maxLines, hgiven] at hchunk
    exact hchunk h
  · have hchunk := Markdown.chunk_of_nonpos t o
    rw [Markdown.maxLines, hgiven] at hchunk
    exact hchunk h

def headedFunction : Text := "# A\ndef f():\n    pass\n".toList

theorem chunk_of_width_not_positive_headedFunction :
    (BoundaryChunker.mk "python" Parsers.none).chunk headedFunction "f.py" { maxLines := some (-1) } =
        .ok [] ∧
      Markdown.chunk headedFunction { maxLines := some (-1) } = .error (.maxLinesNotPositive (-1)) := by
  obtain ⟨-, -, hboundaries, hheadings⟩ := chunk_of_width_not_positive headedFunction
    { maxLines := some (-1) } rfl (by decide)
  constructor
  · rw [hboundaries _ _ (by decide), if_neg (by decide +kernel), if_neg (by decide)]
  · rw [hheadings, if_neg (by decide)]

theorem chunk_headedFunction_not_reported :
    (BoundaryChunker.mk "python" Parsers.none).chunk headedFunction "f.py" { maxLines := some 0 } =
        .error .divisionByZero ∧
      (BoundaryChunker.mk "python" Parsers.none).chunk headedFunction "f.py" { maxLines := some (-1) } =
        .ok [] ∧
      Markdown.chunk headedFunction { maxLines := some 0, minLines := some 1 } =
        .error .divisionByZero := by
  have hfound : (BoundaryChunker.mk "python" Parsers.none).boundaries headedFunction ≠ [] := by
    decide +kernel
  refine ⟨?_, ?_, rfl⟩
  · rw [BoundaryChunker.chunk_of_nonpos _ _ _ (by decide) (by decide), if_neg hfound,
      if_pos (by decide +kernel)]
  · rw [BoundaryChunker.chunk_of_nonpos _ _ _ (by decide) (by decide), if_neg hfound,
      if_neg (by decide)]

end Chunkwise
