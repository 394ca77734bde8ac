import Chunkwise.Filter.Gate
import Chunkwise.Proofs.Pattern.Search

namespace Chunkwise

variable {a b c d : Char} {new t rest : Text}

namespace Text

theorem replacePair_cons_cons (a b : Char) (new rest : Text) :
    replacePair a b new (a :: b :: rest) = new ++ replacePair a b new rest := by
  rw [replacePair, if_pos ⟨rfl, rfl⟩]

theorem replacePair_cons (h : ¬ (c = a ∧ rest.head? = some b)) :
    replacePair a b new (c :: rest) = c :: replacePair a b new rest := by
  cases rest with
  | nil => rfl
  | cons d rest =>
    rw [replacePair, if_neg]
    simpa using h

theorem replacePair_append (h : a ∉ t) (rest : Text) :
    replacePair a b new (t ++ rest) = t ++ replacePair a b new rest := by
  induction t with
  | nil => rfl
  | cons c t ih =>
    obtain ⟨hc, ht⟩ := not_or.mp (List.mem_cons.not.mp h)
    rw [List.cons_append, replacePair_cons fun hpair => hc hpair.1.symm, ih ht, List.cons_append]

inductive Marked (a b : Char) : Text → Prop
  | marked (d : Char) : Marked a b [a, d]
  | plain {t : Text} (h : a ∉ t) (hhead : t.head? ≠ some b) : Marked a b t

theorem head?_flatMap_ne {f : Char → Text} (hne : a ≠ b) (hf : ∀ c, Marked a b (f c)) (t : Text) :
    (t.flatMap f).head? ≠ some b := by
  induction t with
  | nil => simp
  | cons c t ih =>
    have hmarked := hf c
    rw [List.flatMap_cons, List.head?_append]
    generalize f c = u at hmarked ⊢
    cases hmarked with
    | marked d => simpa using hne
    | plain _ hhead =>
      cases hu : u.head? with
      | none => exact ih
      | some d => simpa [hu] using hhead

theorem replacePair_flatMap {f : Char → Text} (hne : a ≠ b) (hf : ∀ c, Marked a b (f c)) (t : Text) :
    replacePair a b new (t.flatMap f) = t.flatMap fun c => if f c = [a, b] then new else f c := by
  induction t with
  | nil => rfl
  | cons c t ih =>
    rw [List.flatMap_cons, List.flatMap_cons, ← ih]
    generalize hu : f c = u
    have hmarked : Marked a b u := hu ▸ hf c
    have hhead := head?_flatMap_ne hne hf t
    cases hmarked with
    | plain hplain _ =>
      rw [replacePair_append hplain, if_neg]
      rintro rfl
      exact hplain List.mem_cons_self
    | marked d =>
      split
      · next heq =>
        obtain rfl : d = b := by simpa using heq
        exact replacePair_cons_cons a d new _
      · next hd =>
        have hfirst : ¬ (a = a ∧ (d :: t.flatMap f).head? = some b) := by simpa using hd
        have hsecond : ¬ (d = a ∧ (t.flatMap f).head? = some b) := fun h => hhead h.2
        change replacePair a b new (a :: d :: t.flatMap f) = _
        rw [replacePair_cons hfirst, replacePair_cons hsecond]
        rfl

end Text

namespace Glob

open Pattern

def writtenOf (c : Char) : Text :=
  if c = '*' then ['.', '*'] else if c = '?' then ['.'] else escapeChar c

def tokensOf (c : Char) : List Token :=
  if c = '*' then [.one notNewline, .many] else if c = '?' then [.one notNewline] else [.one (· == c)]

def patternOf (c : Char) : Pattern :=
  if c = '*' then anything else if c = '?' then one notNewline else char c

theorem special_of_unread (h : unread.contains c = true) : special.contains c = true := by
  have hall : unread.all special.contains = true := rfl
  exact List.all_eq_true.mp hall c (List.contains_iff_mem.mp h)

theorem not_isAlphanum_of_special (h : special.contains c = true) : c.isAlphanum = false := by
  have hall : special.all (fun c => !c.isAlphanum) = true := rfl
  simpa using List.all_eq_true.mp hall c (List.contains_iff_mem.mp h)

theorem escapeChar_eq_iff (hb : special.contains b = true) : escapeChar c = ['\\', b] ↔ c = b := by
  rw [escapeChar]
  split
  · simp
  · next hc =>
    refine iff_of_false (by simp) ?_
    rintro rfl
    exact hc hb

theorem marked_escapeChar (hb : special.contains b = true) (c : Char) :
    Text.Marked '\\' b (escapeChar c) := by
  rw [escapeChar]
  split
  · exact .marked c
  · next hc =>
    have hne (d : Char) (hd : special.contains d = true) : d ≠ c := fun h => hc (h ▸ hd)
    refine .plain ?_ ?_
    · simpa using hne '\\' (by decide)
    · simpa using (hne b hb).symm

theorem replace_stars (glob : Text) : Text.replacePair '\\' '*' ['.', '*'] (escape glob) =
    glob.flatMap fun c => if c = '*' then ['.', '*'] else escapeChar c := by
  rw [escape, Text.replacePair_flatMap (by decide) (marked_escapeChar (by decide))]
  simp only [escapeChar_eq_iff (b := '*') (by decide)]

theorem marked_stars (c : Char) :
    Text.Marked '\\' '?' (if c = '*' then ['.', '*'] else escapeChar c) := by
  split
  · exact .plain (by decide) (by decide)
  · exact marked_escapeChar (by decide) c

theorem written_eq (glob : Text) : written glob = glob.flatMap writtenOf := by
  rw [written, replace_stars, Text.replacePair_flatMap (by decide) marked_stars]
  congr 1
  funext c
  rw [writtenOf]
  split
  · rfl
  · simp only [escapeChar_eq_iff (b := '?') (by decide)]

theorem tokensFrom?_escapeChar (c : Char) (rest : Text) :
    tokensFrom? false (escapeChar c ++ rest) = (tokensFrom? false rest).map (.one (· == c) :: ·) := by
  rw [escapeChar]
  split
  · next hc =>
    change (escapedToken? c).bind _ = _
    rw [escapedToken?, not_isAlphanum_of_special hc]
    rfl
  · next hc =>
    have hne (d : Char) (hd : special.contains d = true) : c ≠ d := fun h => hc (h ▸ hd)
    have hunread : ¬ unread.contains c = true := fun h => hc (special_of_unread h)
    rw [List.singleton_append, tokensFrom?, if_neg (hne '\\' (by decide)), token?,
      if_neg (hne '.' (by decide)), if_neg (hne '*' (by decide)), if_neg hunread]
    rfl

theorem tokensFrom?_writtenOf (c : Char) (rest : Text) :
    tokensFrom? false (writtenOf c ++ rest) = (tokensFrom? false rest).map (tokensOf c ++ ·) := by
  rw [writtenOf, tokensOf]
  split
  · change ((tokensFrom? false rest).map _).map _ = _
    rw [Option.map_map]
    rfl
  · split
    · rfl
    · exact tokensFrom?_escapeChar c rest

theorem tokensFrom?_written (glob : Text) :
    tokensFrom? false (written glob) = some (glob.flatMap tokensOf) := by
  rw [written_eq]
  induction glob with
  | nil => rfl
  | cons c glob ih =>
    rw [List.flatMap_cons, tokensFrom?_writtenOf, ih]
    rfl

theorem ofTokens?_one (test : Char → Bool) (glob : Text) :
    ofTokens? (.one test :: glob.flatMap tokensOf) =
      (ofTokens? (glob.flatMap tokensOf)).map (seq (one test)) := by
  cases glob with
  | nil => rfl
  | cons c glob =>
    rw [List.flatMap_cons, tokensOf]
    split
    · rfl
    · split
      · rfl
      · rfl

theorem ofTokens?_flatMap (glob : Text) :
    ofTokens? (glob.flatMap tokensOf) = some (chain (glob.map patternOf)) := by
  induction glob with
  | nil => rfl
  | cons c glob ih =>
    rw [List.flatMap_cons, List.map_cons, tokensOf, patternOf]
    split
    · change (ofTokens? (glob.flatMap tokensOf)).map (seq (star notNewline)) = _
      rw [ih]
      rfl
    · split
      · rw [List.singleton_append, ofTokens?_one, ih]
        rfl
      · rw [List.singleton_append, ofTokens?_one, ih]
        rfl

theorem toPattern?_eq (glob : Text) : toPattern? glob = some (chain (glob.map patternOf)) := by
  rw [toPattern?, read?, tokensFrom?_written, Option.bind_some, ofTokens?_flatMap]

inductive Matches : Text → Text → Prop
  | nil : Matches [] []
  | star {glob piece passed : Text} (hpassed : '\n' ∉ passed) (h : Matches glob piece) :
      Matches ('*' :: glob) (passed ++ piece)
  | question {glob piece : Text} {c : Char} (hc : c ≠ '\n') (h : Matches glob piece) :
      Matches ('?' :: glob) (c :: piece)
  | char {glob piece : Text} {c : Char} (hstar : c ≠ '*') (hquestion : c ≠ '?') (h : Matches glob piece) :
      Matches (c :: glob) (c :: piece)

def MatchesFront (glob t : Text) : Prop :=
  ∃ piece, piece <+: t ∧ Matches glob piece

variable {glob piece path : Text} {s e : Cursor}

theorem exists_matches_of_passes (h : Passes (chain (glob.map patternOf)) s e) :
    ∃ piece, s.rest = piece ++ e.rest ∧ Matches glob piece := by
  induction glob generalizing s with
  | nil =>
    cases h
    exact ⟨[], rfl, .nil⟩
  | cons c glob ih =>
    rw [List.map_cons] at h
    change Passes (seq (patternOf c) (chain (glob.map patternOf))) s e at h
    cases h with
    | seq hfirst hglob =>
      obtain ⟨piece, hrest, hpiece⟩ := ih hglob
      rw [patternOf] at hfirst
      split at hfirst
      · next hstar =>
        subst hstar
        obtain ⟨passed, ⟨hover, -⟩, hpassed⟩ := hfirst.exists_passed
        refine ⟨passed ++ piece, ?_, .star (hpassed.not_mem (by decide)) hpiece⟩
        rw [hover, hrest, List.append_assoc]
      · next hstar =>
        split at hfirst
        · next hquestion =>
          subst hquestion
          obtain ⟨d, ⟨hover, -⟩, hd⟩ := hfirst.exists_passed_one
          refine ⟨d :: piece, ?_, .question (bne_iff_ne.mp hd) hpiece⟩
          rw [hover, hrest]
          rfl
        · next hquestion =>
          obtain ⟨d, ⟨hover, -⟩, hd⟩ := hfirst.exists_passed_one
          obtain rfl : d = c := beq_iff_eq.mp hd
          refine ⟨d :: piece, ?_, .char hstar hquestion hpiece⟩
          rw [hover, hrest]
          rfl

theorem exists_passes_of_matches (h : Matches glob piece) (hs : s.rest = piece ++ rest) :
    ∃ e, Passes (chain (glob.map patternOf)) s e := by
  induction h generalizing s with
  | nil => exact ⟨s, .empty s⟩
  | @star glob piece passed hpassed _ ih =>
    have hadmits : ∀ c ∈ passed, notNewline c = true := fun c hc =>
      bne_iff_ne.mpr fun heq => hpassed (heq ▸ hc)
    obtain ⟨m, hm, hrest⟩ := exists_passes_star hadmits (hs.trans (List.append_assoc passed piece rest))
    obtain ⟨e, he⟩ := ih hrest
    exact ⟨e, .seq hm he⟩
  | @question glob piece c hc _ ih =>
    obtain ⟨e, he⟩ := ih (s := ⟨some c, piece ++ rest, s.offset + 1, s.groups⟩) rfl
    exact ⟨e, .seq (.one hs (bne_iff_ne.mpr hc)) he⟩
  | @char glob piece c hstar hquestion _ ih =>
    obtain ⟨e, he⟩ := ih (s := ⟨some c, piece ++ rest, s.offset + 1, s.groups⟩) rfl
    have hpattern : patternOf c = Pattern.char c := by rw [patternOf, if_neg hstar, if_neg hquestion]
    rw [List.map_cons, hpattern]
    exact ⟨e, .seq (.one hs (beq_self_eq_true c)) he⟩

theorem exists_passes_iff (glob : Text) (s : Cursor) :
    (∃ e, Passes (chain (glob.map patternOf)) s e) ↔ MatchesFront glob s.rest := by
  constructor
  · rintro ⟨e, he⟩
    obtain ⟨piece, hrest, hpiece⟩ := exists_matches_of_passes he
    exact ⟨piece, ⟨e.rest, hrest.symm⟩, hpiece⟩
  · rintro ⟨piece, ⟨rest, hrest⟩, hpiece⟩
    exact exists_passes_of_matches hpiece hrest.symm

theorem occursIn_iff_matches (glob path : Text) :
    occursIn glob path = true ↔ ∃ piece, piece <:+: path ∧ Matches glob piece := by
  rw [occursIn, toPattern?_eq, Option.any_some, occursIn_iff_of_ahead (exists_passes_iff glob)]
  constructor
  · rintro ⟨below, hbelow, piece, hpiece, hmatches⟩
    exact ⟨piece, List.infix_iff_prefix_suffix.mpr ⟨below, hpiece, hbelow⟩, hmatches⟩
  · rintro ⟨piece, hinfix, hmatches⟩
    obtain ⟨below, hpiece, hbelow⟩ := List.infix_iff_prefix_suffix.mp hinfix
    exact ⟨below, hbelow, piece, hpiece, hmatches⟩

theorem written_glob_exact (glob path : Text) (o : FilterOptions) (c : Candidate) :
    (toPattern? glob).isSome = true ∧
    (occursIn glob path = true ↔ ∃ piece, piece <:+: path ∧ Matches glob piece) ∧
    (o.concerns c .customPatterns = true ↔
      ∃ g ∈ o.customPatterns, ∃ piece, piece <:+: c.rootedPath ∧ Matches g.toList piece) := by
  refine ⟨?_, occursIn_iff_matches glob path, ?_⟩
  · rw [toPattern?_eq]
    rfl
  · change (o.customPatterns.any fun g => occursIn g.toList c.rootedPath) = true ↔ _
    simp only [List.any_eq_true, occursIn_iff_matches]

end Glob

end Chunkwise
