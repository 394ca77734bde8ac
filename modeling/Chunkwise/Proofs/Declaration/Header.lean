import Chunkwise.Proofs.Declaration.Sweep

namespace Chunkwise

namespace Declaration

open Pattern

variable {t : Text} {d : Declaration} {m : Match} {form : DeclarationForm} {pattern : Pattern}

def leads : List (DeclarationForm × List Pattern) := [
  (.function, [wordEdge, optWord "export", optWord "async", literal "function", blanks]),
  (.classBody, [wordEdge, optWord "export", optWord "abstract", literal "class", blanks]),
  (.interfaceBody, [wordEdge, optWord "export", literal "interface", blanks]),
  (.typeAlias, [wordEdge, optWord "export", literal "type", blanks]),
  (.constant, [wordEdge, optWord "export", literal "const", blanks])]

def behindName (form : DeclarationForm) : List Pattern :=
  match endingOf form with
  | .terminator => [anyBlanks, char '=']
  | .closingBrace => []

theorem headers_eq : headers = leads.map fun (form, lead) =>
    (form, chain (lead ++ wordGroup :: behindName form)) := rfl

theorem isPlain_leads : ∀ x ∈ leads, (chain x.2).isPlain = true := by decide

theorem isPlain_behindName (form : DeclarationForm) : (chain (behindName form)).isPlain = true := by
  cases form <;> rfl

theorem tests_headers : ∀ x ∈ headers, ∀ test ∈ x.2.tests, test ';' = false ∧ test '}' = false := by
  decide

structure HeaderText (form : DeclarationForm) (lead name rest : Text) : Prop where
  name_ne_nil : name ≠ []
  name_isWord : ∀ c ∈ name, isWordChar c = true
  rest_eq : endingOf form = .terminator → ∃ blank, rest = blank ++ ['=']
  no_mark : ';' ∉ lead ++ (name ++ rest) ∧ '}' ∉ lead ++ (name ++ rest)

theorem exists_name_of_passes {s e : Cursor} (h : Passes wordGroup s e) :
    ∃ name, s.Over name e ∧ e.groups = name :: s.groups ∧ name ≠ [] ∧ ∀ c ∈ name, isWordChar c = true := by
  cases h with
  | group hplus =>
      obtain ⟨name, hover, hname⟩ := hplus.exists_passed_plus
      exact ⟨name, hover, by rw [hover.close_groups, hplus.groups_eq rfl], hname⟩

theorem exists_equals_of_passes {s e : Cursor} (hending : endingOf form = .terminator)
    (h : Passes (chain (behindName form)) s e) : ∃ blank, s.Over (blank ++ ['=']) e := by
  rw [behindName, hending] at h
  cases h with
  | seq hblank hrest =>
      obtain ⟨blank, hover, -⟩ := hblank.exists_passed
      cases hrest with
      | seq hequals hend =>
          cases hend
          obtain ⟨c, hover', hc⟩ := hequals.exists_passed_one
          obtain rfl := beq_iff_eq.mp hc
          exact ⟨blank, hover.trans hover'⟩

theorem firstGroup_eq {name : Text} (h : m.stop.groups = [name]) : m.firstGroup = name := by
  rw [Match.firstGroup, Match.group?, h]
  rfl

theorem exists_headerText (hform : (form, pattern) ∈ headers) (hm : m ∈ pattern.findAll t) :
    ∃ lead rest, m.start.Over (lead ++ (m.firstGroup ++ rest)) m.stop ∧
      HeaderText form lead m.firstGroup rest := by
  obtain ⟨hpasses, hgroups⟩ := passes_of_mem_findAll hm
  have htests := tests_headers _ hform
  obtain ⟨passed, hpassed, hadmits⟩ := hpasses.exists_passed
  rw [headers_eq, List.mem_map] at hform
  obtain ⟨⟨form, leadPatterns⟩, hlead, heq⟩ := hform
  cases heq
  obtain ⟨_, hleads, hrest⟩ := hpasses.append
  cases hrest with
  | seq hname hbehind =>
      obtain ⟨lead, hoverLead, -⟩ := hleads.exists_passed
      obtain ⟨name, hoverName, hgroup, hne, hword⟩ := exists_name_of_passes hname
      obtain ⟨rest, hoverRest, -⟩ := hbehind.exists_passed
      have hfirst : m.firstGroup = name := by
        apply firstGroup_eq
        rw [hbehind.groups_eq (isPlain_behindName form), hgroup,
          hleads.groups_eq (isPlain_leads _ hlead), hgroups]
      have hover := hoverLead.trans (hoverName.trans hoverRest)
      obtain rfl := hpassed.unique hover
      rw [hfirst]
      refine ⟨lead, rest, hover, hne, hword, ?_, ?_⟩
      · intro hending
        obtain ⟨blank, hblank⟩ := exists_equals_of_passes hending hbehind
        exact ⟨blank, hoverRest.unique hblank⟩
      · exact ⟨hadmits.not_mem fun test htest => (htests test htest).1,
          hadmits.not_mem fun test htest => (htests test htest).2⟩

def Ending.mark (ahead : Bool) : Ending → Char
  | .closingBrace => '}'
  | .terminator => if ahead then ';' else '\n'

theorem getElem?_closingBrace {depth i j : Nat} (h : closingBrace? depth i t = some j) :
    t[j - i]? = some '}' := by
  induction t generalizing depth i with
  | nil => cases h
  | cons c t ih =>
      rcases closingBrace?_cons depth i c with ⟨rfl, hend⟩ | ⟨next, hnext⟩
      · rw [hend] at h
        cases h
        rw [Nat.sub_self]
        rfl
      · rw [hnext] at h
        have hbounds := closingBrace?_bounds h
        rw [show j - i = j - (i + 1) + 1 by omega, List.getElem?_cons_succ]
        exact ih h

theorem getElem?_extent {ending : Ending} {ahead : Bool} {i : Nat} (h : extent? ending ahead t = some i) :
    t[i]? = some (ending.mark ahead) := by
  cases ending with
  | terminator =>
      obtain ⟨hlt, hmark, -⟩ := List.findIdx?_eq_some_iff_getElem.mp h
      rw [List.getElem?_eq_getElem hlt, beq_iff_eq.mp hmark]
      rfl
  | closingBrace => exact getElem?_closingBrace h

theorem length_le_extent {ending : Ending} {ahead : Bool} {head rest : Text} {i : Nat}
    (h : extent? ending ahead (head ++ rest) = some i) (hmark : ending.mark ahead ∉ head) :
    head.length ≤ i := by
  by_contra hlt
  have hget := getElem?_extent h
  rw [List.getElem?_append_left (Nat.not_le.mp hlt)] at hget
  exact hmark (List.mem_of_getElem? hget)

theorem lt_foldl_iff {n last k : Nat} (h : last ≤ n) :
    k < (t.foldl (fun (s : Nat × Nat) c => (s.1 + 1, if c == ';' then s.1 + 1 else s.2)) (n, last)).2 ↔
      k < last ∨ ';' ∈ t.drop (k - n) := by
  -- `n` characters are behind, and `last` is the end of the last semicolon among them
  induction t generalizing n last with
  | nil => simp
  | cons c t ih =>
      have hlast : (if c == ';' then n + 1 else last) ≤ n + 1 := by
        split <;> omega
      rw [List.foldl_cons, ih hlast]
      by_cases hk : k ≤ n
      · rw [Nat.sub_eq_zero_of_le hk, Nat.sub_eq_zero_of_le (Nat.le_succ_of_le hk), List.drop_zero,
          List.drop_zero, List.mem_cons]
        split
        · next hc => exact iff_of_true (.inl (by omega)) (.inr (.inl (beq_iff_eq.mp hc).symm))
        · next hc =>
            have hne : ¬ ';' = c := fun e => hc (beq_iff_eq.mpr e.symm)
            rw [or_iff_right hne]
      · obtain ⟨j, hj⟩ : ∃ j, k - n = j + 1 := ⟨k - n - 1, by omega⟩
        have hnext : k - (n + 1) = j := by omega
        rw [hj, hnext, List.drop_succ_cons]
        have hearly : ¬ k < (if c == ';' then n + 1 else last) := by
          split <;> omega
        rw [or_iff_right hearly, or_iff_right (show ¬ k < last by omega)]

theorem lt_semicolonsEnd_iff {start : Nat} : start < semicolonsEnd t ↔ ';' ∈ t.drop start := by
  rw [semicolonsEnd, lt_foldl_iff (Nat.le_refl 0)]
  simp

theorem startOffset_natCast (length start : Nat) : startOffset length start = start := by
  rw [startOffset, if_neg (Int.not_lt.mpr (Int.natCast_nonneg _)), Int.toNat_natCast]

theorem stop_eq_endOffset (hd : d ∈ allOf t) : (d.stop : Int) = endOffset t d.start (endingOf d.form) := by
  obtain ⟨h, hh, rfl⟩ := exists_header_of_mem_allOf hd
  obtain ⟨k, hk, hstart, hrest⟩ := startsIn_of_mem_headersOf hh
  obtain rfl : k = h.start := by
    rw [Header.start, hstart, Nat.zero_add]
  have hahead : decide (h.start < semicolonsEnd t) = (t.drop h.start).contains ';' := by
    rw [Bool.eq_iff_iff, decide_eq_true_eq, lt_semicolonsEnd_iff, List.contains_iff_mem]
  change ((ofHeader _ _ h).stop : Int) = endOffset t h.start (endingOf h.form)
  rw [endOffset, startOffset_natCast]
  simp only [ofHeader, hrest, hahead]
  cases extent? (endingOf h.form) ((t.drop h.start).contains ';') (t.drop h.start) with
  | some i => exact Int.natCast_add _ _
  | none => exact Int.natCast_sub (Nat.one_le_of_lt hk)

theorem stop_cases (hd : d ∈ allOf t) :
    (∃ i, extent? (endingOf d.form) ((t.drop d.start).contains ';') (t.drop d.start) = some i ∧
      d.stop = d.start + i) ∨
    extent? (endingOf d.form) ((t.drop d.start).contains ';') (t.drop d.start) = none ∧
      d.stop + 1 = t.length := by
  have hstop := stop_eq_endOffset hd
  rw [endOffset, startOffset_natCast] at hstop
  cases hextent : extent? (endingOf d.form) ((t.drop d.start).contains ';') (t.drop d.start) with
  | some i =>
      simp only [hextent] at hstop
      exact .inl ⟨i, rfl, by omega⟩
  | none =>
      simp only [hextent] at hstop
      exact .inr ⟨rfl, by omega⟩

theorem HeadedBy.exists_headerText (hm : HeadedBy t d m) :
    ∃ lead rest, t.drop d.start = lead ++ (m.firstGroup ++ rest) ++ m.stop.rest ∧
      m.stop.offset = d.start + (lead ++ (m.firstGroup ++ rest)).length ∧
      HeaderText d.form lead m.firstGroup rest := by
  obtain ⟨⟨pattern, hform, hfound⟩, hstart, -⟩ := hm
  obtain ⟨lead, rest, ⟨hrest, hoffset⟩, htext⟩ := Declaration.exists_headerText hform hfound
  obtain ⟨k, -, hk, hdrop⟩ := Pattern.startsIn_of_mem_findAll hfound
  obtain rfl : k = d.start := by omega
  exact ⟨lead, rest, hdrop.symm.trans hrest, hstart ▸ hoffset, htext⟩

theorem mark_mem_iff {lead name rest : Text} (ahead : Bool) (htext : HeaderText form lead name rest) :
    (endingOf form).mark ahead ∈ lead ++ (name ++ rest) ↔
      ¬ (endingOf form = .closingBrace ∨ ahead = true ∨ '\n' ∉ lead ++ (name ++ rest)) := by
  obtain ⟨hsemicolon, hbrace⟩ := htext.no_mark
  cases endingOf form with
  | closingBrace => simpa [Ending.mark] using hbrace
  | terminator =>
      cases ahead with
      | true => simpa [Ending.mark] using hsemicolon
      | false =>
          simp only [Ending.mark, Bool.false_eq_true, if_false, reduceCtorEq, false_or, not_not]

theorem stop_le_of_mark_not_mem {head rest : Text} (hd : d ∈ allOf t)
    (hhead : t.drop d.start = head ++ rest)
    (hmark : (endingOf d.form).mark ((t.drop d.start).contains ';') ∉ head) :
    d.start + head.length ≤ d.stop + 1 := by
  rcases stop_cases hd with ⟨i, hextent, hstop⟩ | ⟨-, hstop⟩
  · rw [hhead] at hextent hmark
    have := length_le_extent hextent hmark
    omega
  · have hin := in_of_mem_allOf hd
    have hlength := congrArg List.length hhead
    rw [List.length_drop, List.length_append] at hlength
    have := hin.start_le_stop
    omega

theorem exists_extent_lt {body : Text} (more : Text) (h : '\n' ∈ body) :
    ∃ i < body.length, extent? .terminator false (body ++ more) = some i := by
  have hline : ∃ c ∈ body, (c == '\n') = true := ⟨_, h, rfl⟩
  refine ⟨_, List.findIdx_lt_length_of_exists hline, ?_⟩
  change (body ++ more).findIdx? (· == '\n') = _
  rw [List.findIdx?_append, List.findIdx?_eq_some_of_exists hline, Option.some_or]

theorem stop_of_mark_mem {lead name rest more : Text} (hd : d ∈ allOf t)
    (hhead : t.drop d.start = lead ++ (name ++ rest) ++ more)
    (htext : HeaderText d.form lead name rest)
    (hmark : (endingOf d.form).mark ((t.drop d.start).contains ';') ∈ lead ++ (name ++ rest)) :
    d.stop + 1 < d.start + (lead ++ (name ++ rest)).length ∧ t[d.stop]? = some '\n' := by
  have hcut := (mark_mem_iff _ htext).mp hmark
  have hending : endingOf d.form = .terminator := by
    cases hform : endingOf d.form with
    | terminator => rfl
    | closingBrace => exact absurd (.inl hform) hcut
  have hahead : (t.drop d.start).contains ';' = false :=
    Bool.eq_false_iff.mpr fun h => hcut (.inr (.inl h))
  obtain ⟨blank, hrest⟩ := htext.rest_eq hending
  -- the equals sign comes last, so the line break stands before it
  have hbody : lead ++ (name ++ rest) = lead ++ (name ++ blank) ++ ['='] := by
    rw [hrest, List.append_assoc, List.append_assoc]
  have hline : '\n' ∈ lead ++ (name ++ blank) := by
    rw [hending, hahead, hbody, List.mem_append] at hmark
    exact hmark.resolve_right (by decide)
  obtain ⟨i, hlt, hextent⟩ := exists_extent_lt (['='] ++ more) hline
  rw [← List.append_assoc, ← hbody, ← hhead] at hextent
  have hget := getElem?_extent hextent
  rw [List.getElem?_drop] at hget
  rcases stop_cases hd with ⟨j, hextent', hstop⟩ | ⟨hnone, -⟩
  · rw [hending, hahead, hextent, Option.some.injEq] at hextent'
    subst hextent'
    rw [hbody, List.length_append, List.length_singleton, hstop]
    exact ⟨by omega, hget⟩
  · rw [hending, hahead, hextent] at hnone
    cases hnone

theorem HeadedBy.stop_le_iff (hd : d ∈ allOf t) (hm : HeadedBy t d m) :
    (m.stop.offset ≤ d.stop + 1 ↔ endingOf d.form = .closingBrace ∨ ';' ∈ t.drop d.start ∨
      '\n' ∉ t.slice d.start m.stop.offset) ∧
    (d.stop + 1 < m.stop.offset → t[d.stop]? = some '\n') := by
  obtain ⟨lead, rest, hhead, hoffset, htext⟩ := hm.exists_headerText
  have hslice : t.slice d.start m.stop.offset = lead ++ (m.firstGroup ++ rest) := by
    rw [Text.slice, hhead, hoffset, Nat.add_sub_cancel_left, List.take_left]
  have hmark := mark_mem_iff ((t.drop d.start).contains ';') htext
  rw [List.contains_iff_mem] at hmark
  rw [hslice]
  by_cases hcut : (endingOf d.form).mark ((t.drop d.start).contains ';') ∈
      lead ++ (m.firstGroup ++ rest)
  · obtain ⟨hlt, hbreak⟩ := stop_of_mark_mem hd hhead htext hcut
    exact ⟨iff_of_false (by omega) (hmark.mp hcut), fun _ => hbreak⟩
  · have hle := stop_le_of_mark_not_mem hd hhead hcut
    exact ⟨iff_of_true (by omega) (not_not.mp (mt hmark.mpr hcut)), fun hlt => by omega⟩

theorem HeadedBy.exists_name (hm : HeadedBy t d m) :
    ∃ a b, d.start ≤ a ∧ a < b ∧ b ≤ m.stop.offset ∧ String.ofList (t.slice a b) = d.name := by
  obtain ⟨lead, rest, hhead, hoffset, htext⟩ := hm.exists_headerText
  have hpos := List.length_pos_iff.mpr htext.name_ne_nil
  simp only [List.length_append] at hoffset
  refine ⟨d.start + lead.length, d.start + lead.length + m.firstGroup.length, by omega, by omega,
    by omega, ?_⟩
  rw [hm.name_eq, Text.slice, ← List.drop_drop, hhead, List.append_assoc, List.drop_left,
    List.append_assoc, Nat.add_sub_cancel_left, List.take_left]

theorem header_within_iff (hd : d ∈ allOf t) :
    (d.stop : Int) = endOffset t d.start (endingOf d.form) ∧ (∃ m, HeadedBy t d m) ∧
    ∀ m, HeadedBy t d m →
      (m.stop.offset ≤ d.stop + 1 ↔ endingOf d.form = .closingBrace ∨ ';' ∈ t.drop d.start ∨
        '\n' ∉ t.slice d.start m.stop.offset) ∧
      (d.stop + 1 < m.stop.offset → t[d.stop]? = some '\n') ∧
      ∃ a b, d.start ≤ a ∧ a < b ∧ b ≤ m.stop.offset ∧ String.ofList (t.slice a b) = d.name ∧
        (m.stop.offset ≤ d.stop + 1 → (t.take a).count '\n' + 1 ≤ d.span.last) := by
  refine ⟨stop_eq_endOffset hd, exists_headedBy hd, ?_⟩
  intro m hm
  obtain ⟨hwithin, hbreak⟩ := hm.stop_le_iff hd
  obtain ⟨a, b, hstart, hlt, hstop, hname⟩ := hm.exists_name
  refine ⟨hwithin, hbreak, a, b, hstart, hlt, hstop, hname, ?_⟩
  intro hle
  have hcount : (t.take a).count '\n' ≤ (t.take d.stop).count '\n' :=
    (List.take_sublist_take_left (by omega)).count_le _
  rw [(in_of_mem_allOf hd).last_eq]
  exact Nat.succ_le_succ hcount

def brokenConstant : Text := "const\nx = 1".toList

theorem allOf_brokenConstant : ∃ d ∈ allOf brokenConstant,
    d.form = .constant ∧ d.start = 0 ∧ d.stop = 5 ∧ d.span.last = 1 ∧ d.name = "x" := by
  decide +kernel

theorem headedBy_brokenConstant (hform : d.form = .constant) (hstart : d.start = 0) (hname : d.name = "x") :
    ∃ m, HeadedBy brokenConstant d m ∧ m.stop.offset = 9 := by
  have hheader : headers[4] ∈ headers := List.getElem_mem _
  obtain ⟨m, hm⟩ := List.length_pos_iff_exists_mem.mp
    (show 0 < (headers[4].2.findAll brokenConstant).length by decide)
  have hmatch : ∀ m ∈ headers[4].2.findAll brokenConstant,
      m.start.offset = 0 ∧ m.stop.offset = 9 ∧ String.ofList m.firstGroup = "x" := by decide
  obtain ⟨hoffset, hstop, hgroup⟩ := hmatch m hm
  refine ⟨m, ⟨⟨headers[4].2, ?_, hm⟩, hstart.trans hoffset.symm, hname.trans hgroup.symm⟩, hstop⟩
  rw [hform]
  exact hheader

theorem header_within_iff_brokenConstant :
    ∃ d ∈ allOf brokenConstant, ∃ m, HeadedBy brokenConstant d m ∧
      ¬ (endingOf d.form = .closingBrace ∨ ';' ∈ brokenConstant.drop d.start ∨
        '\n' ∉ brokenConstant.slice d.start m.stop.offset) ∧
      d.stop + 1 < m.stop.offset ∧ brokenConstant[d.stop]? = some '\n' := by
  obtain ⟨d, hd, hform, hstart, hstop, -, hname⟩ := allOf_brokenConstant
  obtain ⟨m, hm, hoffset⟩ := headedBy_brokenConstant hform hstart hname
  obtain ⟨hwithin, hbreak, -⟩ := (header_within_iff hd).2.2 m hm
  have hlt : d.stop + 1 < m.stop.offset := by omega
  exact ⟨d, hd, m, hm, mt hwithin.mpr (Nat.not_le.mpr hlt), hlt, hbreak hlt⟩

theorem brokenConstant_name_below_last_line :
    ∃ d ∈ allOf brokenConstant, ∃ m, HeadedBy brokenConstant d m ∧ d.stop + 1 < m.stop.offset ∧
      String.ofList (brokenConstant.slice 6 7) = d.name ∧
      d.span.last < (brokenConstant.take 6).count '\n' + 1 := by
  obtain ⟨d, hd, hform, hstart, hstop, hlast, hname⟩ := allOf_brokenConstant
  obtain ⟨m, hm, hoffset⟩ := headedBy_brokenConstant hform hstart hname
  refine ⟨d, hd, m, hm, by omega, ?_, ?_⟩
  · rw [hname]
    decide
  · rw [hlast]
    decide

end Declaration

end Chunkwise
