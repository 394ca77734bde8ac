import Chunkwise.Command.Run
import Chunkwise.Proofs.Chunkers
import Chunkwise.Proofs.Files.Path
import Chunkwise.Proofs.Json

namespace Chunkwise

variable {tree : FileTree} {current p q : Place} {parsers : Parsers} {o : Options} {path : String}
  {chunks : List Chunk} {fault : Fault}

namespace Place

theorem isNormal_root (h : ∀ n ∈ p, Path.IsName n) : Path.IsNormal ⟨"/", p⟩ :=
  ⟨.inr (.inl rfl), h⟩

theorem ofString_path (h : ∀ n ∈ p, Path.IsName n) : Path.ofString p.path = ⟨"/", p⟩ :=
  (isNormal_root h).ofString_toString

theorem below_path (h : ∀ n ∈ p, Path.IsName n) (names : List String) :
    Path.below p.path names = Place.path (p ++ names) := by
  rw [Path.below, ofString_path h]
  rfl

theorem shown_inj (hp : ∀ n ∈ p, Path.IsName n) (hq : ∀ n ∈ q, Path.IsName n)
    (h : shown current p = shown current q) : p = q := by
  have hrelative : ∀ {r : Place}, (∀ n ∈ r, Path.IsName n) →
      Path.IsNormal ⟨"", r.drop current.length⟩ :=
    fun hr => ⟨.inl rfl, fun n hn => hr n (List.mem_of_mem_drop hn)⟩
  rw [shown, shown] at h
  split at h
  · next hbelow =>
      split at h
      · next hbelow' =>
          have hdrop := congrArg Path.names
            ((Path.toString_inj (hrelative hp) (hrelative hq)).mp h)
          rw [List.isPrefixOf_iff_prefix] at hbelow hbelow'
          obtain ⟨names, rfl⟩ := hbelow
          obtain ⟨names', rfl⟩ := hbelow'
          simpa using hdrop
      · have hroot := congrArg Path.root ((Path.toString_inj (hrelative hp) (isNormal_root hq)).mp h)
        exact absurd hroot (by simp)
  · split at h
    · have hroot := congrArg Path.root ((Path.toString_inj (isNormal_root hp) (hrelative hq)).mp h)
      exact absurd hroot (by simp)
    · exact congrArg Path.names ((Path.toString_inj (isNormal_root hp) (isNormal_root hq)).mp h)

end Place

theorem Outcome.count_text {outcome : Outcome} (h : ∀ line ∈ outcome.lines, '\n' ∉ line.toList) :
    outcome.text.count '\n' = outcome.lines.length := by
  rw [text]
  generalize outcome.lines = lines at h
  induction lines with
  | nil => rfl
  | cons line lines ih =>
      obtain ⟨hline, hlines⟩ := List.forall_mem_cons.mp h
      rw [List.flatMap_cons, List.count_append, List.count_append, ih hlines,
        List.count_eq_zero.mpr hline, List.length_cons]
      exact Nat.add_comm _ _

namespace Report

theorem newline_not_mem_recordLine (path : String) (c : Chunk) :
    '\n' ∉ (recordLine path c).toList :=
  (Json.printable_render _).newline_not_mem

theorem mem_of_mem_trimEnd {t : Text} {x : Char} (h : x ∈ t.trimEnd) : x ∈ t := by
  rw [Text.trimEnd, List.mem_reverse] at h
  exact List.mem_reverse.mp ((List.dropWhile_sublist _).subset h)

theorem newline_not_mem_toString (n : Nat) : '\n' ∉ (toString n).toList :=
  (Json.printable_toString n).newline_not_mem

theorem newline_not_mem_plainLine {c : Chunk} (hpath : '\n' ∉ path.toList)
    (hname : '\n' ∉ (c.name.getD "").toList) : '\n' ∉ (plainLine path c).toList := by
  have hkind : '\n' ∉ c.kind.label.toList := by cases c.kind <;> decide
  have hfirst := newline_not_mem_toString c.span.first
  have hlast := newline_not_mem_toString c.span.last
  rw [plainLine, String.toList_ofList]
  refine mt mem_of_mem_trimEnd ?_
  simp only [String.toList_append, List.mem_append, not_or]
  exact ⟨⟨⟨⟨⟨⟨⟨⟨hpath, by decide⟩, hfirst⟩, by decide⟩, hlast⟩, by decide⟩, hkind⟩, by decide⟩, hname⟩

theorem newline_not_mem_line {asJson : Bool} {c : Chunk}
    (h : asJson = true ∨ '\n' ∉ path.toList ∧ '\n' ∉ (c.name.getD "").toList) :
    '\n' ∉ (line asJson (path, c)).toList := by
  rw [line]
  split
  · exact newline_not_mem_recordLine path c
  · next hplain =>
      obtain ⟨hpath, hname⟩ := h.resolve_left hplain
      exact newline_not_mem_plainLine hpath hname

variable {files : List (String × List Chunk)}

theorem putIn_of_mem (hmem : path ∈ files.map (·.1))
    (h : ∀ f ∈ files, f.1 = path → f = (path, chunks)) : putIn path chunks files = files := by
  induction files with
  | nil => cases hmem
  | cons f files ih =>
      obtain ⟨hf, hfiles⟩ := List.forall_mem_cons.mp h
      rw [putIn]
      split
      · next hpath => rw [hf hpath]
      · next hpath =>
          rw [List.map_cons, List.mem_cons] at hmem
          rw [ih (hmem.resolve_left (Ne.symm hpath)) hfiles]

theorem putIn_of_not_mem (h : path ∉ files.map (·.1)) :
    putIn path chunks files = files ++ [(path, chunks)] := by
  induction files with
  | nil => rfl
  | cons f files ih =>
      rw [List.map_cons, List.mem_cons, not_or] at h
      rw [putIn, if_neg (Ne.symm h.1), ih h.2, List.cons_append]

def ofFiles (current : Place) (files : List (Place × List Chunk)) : Report :=
  ⟨files.map fun (place, chunks) => (Place.shown current place, chunks)⟩

theorem lines_ofFiles (asJson : Bool) (files : List (Place × List Chunk)) :
    (ofFiles current files).lines asJson = files.flatMap fun (place, chunks) =>
      chunks.map fun c => line asJson (Place.shown current place, c) := by
  simp [lines, Report.chunks, ofFiles, List.map_flatMap, List.flatMap_map, Function.comp_def]

theorem newline_not_mem_lines {asJson : Bool} {files : List (Place × List Chunk)}
    (h : asJson = true ∨ ∀ f ∈ files, '\n' ∉ (Place.shown current f.1).toList ∧
      ∀ c ∈ f.2, '\n' ∉ (c.name.getD "").toList) :
    ∀ s ∈ (ofFiles current files).lines asJson, '\n' ∉ s.toList := by
  intro s hs
  rw [lines_ofFiles] at hs
  obtain ⟨f, hf, hs⟩ := List.mem_flatMap.mp hs
  obtain ⟨c, hc, rfl⟩ := List.mem_map.mp hs
  apply newline_not_mem_line
  rcases h with hjson | hnames
  · exact .inl hjson
  · exact .inr ⟨(hnames f hf).1, (hnames f hf).2 c hc⟩

theorem put_ofFiles_of_mem {files : List (Place × List Chunk)}
    (hnames : ∀ f ∈ files, ∀ n ∈ f.1, Path.IsName n) (hmem : (p, chunks) ∈ files)
    (h : ∀ f ∈ files, f.1 = p → f.2 = chunks) :
    (ofFiles current files).put (Place.shown current p) chunks = ofFiles current files := by
  rw [put, putIn_of_mem]
  · simp only [ofFiles, List.map_map, List.mem_map, Function.comp_apply]
    exact ⟨(p, chunks), hmem, rfl⟩
  · intro g hg hshown
    obtain ⟨f, hf, rfl⟩ := List.mem_map.mp hg
    have hplace := Place.shown_inj (hnames f hf) (hnames _ hmem) hshown
    exact Prod.ext hshown (h f hf hplace)

theorem put_ofFiles_of_not_mem {files : List (Place × List Chunk)}
    (hnames : ∀ f ∈ files, ∀ n ∈ f.1, Path.IsName n) (hp : ∀ n ∈ p, Path.IsName n)
    (h : ∀ f ∈ files, f.1 ≠ p) :
    (ofFiles current files).put (Place.shown current p) chunks =
      ofFiles current (files ++ [(p, chunks)]) := by
  rw [put, putIn_of_not_mem]
  · simp [ofFiles]
  · simp only [ofFiles, List.map_map, List.mem_map, Function.comp_apply, not_exists, not_and]
    intro f hf hshown
    exact h f hf (Place.shown_inj (hnames f hf) hp hshown)

end Report

namespace FileTree

def collectAll (tree : FileTree) (current : Place) (parsers : Parsers) (o : Options)
    (places : List Place) : List (Place × List Chunk) :=
  places.eraseDups.filterMap fun place =>
    (tree.collectFile current parsers o place.path).toOption.map (place, ·)

variable {places : List Place}

theorem mem_collectAll_iff : (p, chunks) ∈ tree.collectAll current parsers o places ↔
    p ∈ places ∧ tree.collectFile current parsers o p.path = .ok chunks := by
  simp [collectAll, List.mem_filterMap, toOption_eq_some]

theorem nodup_collectAll : ((tree.collectAll current parsers o places).map (·.1)).Nodup :=
  (sublist_filterMap_toOption _ _).nodup (nodup_eraseDups places)

theorem nodup_shown (hplaces : ∀ p ∈ places, ∀ n ∈ p, Path.IsName n) :
    ((tree.collectAll current parsers o places).map fun f => Place.shown current f.1).Nodup := by
  have hnodup : (tree.collectAll current parsers o places).Pairwise fun f g => f.1 ≠ g.1 :=
    List.pairwise_map.mp nodup_collectAll
  refine List.pairwise_map.mpr (hnodup.imp_of_mem fun {f g} hf hg hne hshown => hne ?_)
  exact Place.shown_inj (hplaces f.1 (mem_collectAll_iff.mp hf).1)
    (hplaces g.1 (mem_collectAll_iff.mp hg).1) hshown

theorem put_collectAll (hplaces : ∀ p ∈ places, ∀ n ∈ p, Path.IsName n)
    (hp : ∀ n ∈ p, Path.IsName n)
    (hok : tree.collectFile current parsers o p.path = .ok chunks) :
    (Report.ofFiles current (tree.collectAll current parsers o places)).put (Place.shown current p)
        chunks = Report.ofFiles current (tree.collectAll current parsers o (places ++ [p])) := by
  have hnames : ∀ f ∈ tree.collectAll current parsers o places, ∀ n ∈ f.1, Path.IsName n :=
    fun f hf => hplaces f.1 (mem_collectAll_iff.mp hf).1
  by_cases hmem : p ∈ places
  · -- The chunks are made once more, but of the same file, so those that are there stay.
    have hsame : tree.collectAll current parsers o (places ++ [p]) =
        tree.collectAll current parsers o places := by
      rw [collectAll, eraseDups_concat, if_pos hmem, collectAll]
    rw [hsame]
    apply Report.put_ofFiles_of_mem hnames (mem_collectAll_iff.mpr ⟨hmem, hok⟩)
    rintro ⟨_, chunks'⟩ hf rfl
    exact Except.ok.inj ((mem_collectAll_iff.mp hf).2.symm.trans hok)
  · have hnext : tree.collectAll current parsers o (places ++ [p]) =
        tree.collectAll current parsers o places ++ [(p, chunks)] := by
      rw [collectAll, eraseDups_concat, if_neg hmem, List.filterMap_append, collectAll]
      simp [hok, Except.toOption]
    rw [hnext]
    apply Report.put_ofFiles_of_not_mem hnames hp
    rintro ⟨_, chunks'⟩ hf rfl
    exact hmem (mem_collectAll_iff.mp hf).1

theorem collectAll_concat_of_error (h : tree.collectFile current parsers o p.path = .error fault) :
    tree.collectAll current parsers o (places ++ [p]) = tree.collectAll current parsers o places := by
  rw [collectAll, eraseDups_concat, collectAll]
  split
  · rfl
  · simp [h, Except.toOption]

theorem putAll_collectAll (hplaces : ∀ p ∈ places, ∀ n ∈ p, Path.IsName n) {more : List Place}
    (hmore : ∀ p ∈ more, ∀ n ∈ p, Path.IsName n) :
    Request.putAll current (Report.ofFiles current (tree.collectAll current parsers o places))
      (more.filterMap fun p => (tree.collectFile current parsers o p.path).toOption.map (p.path, ·)) =
      Report.ofFiles current (tree.collectAll current parsers o (places ++ more)) := by
  induction more generalizing places with
  | nil =>
      rw [List.append_nil]
      rfl
  | cons p more ih =>
      obtain ⟨hp, hmore⟩ := List.forall_mem_cons.mp hmore
      have hplaces' : ∀ q ∈ places ++ [p], ∀ n ∈ q, Path.IsName n := by
        simpa [or_imp, forall_and] using ⟨hplaces, hp⟩
      have hnext := ih hplaces' hmore
      rw [List.append_assoc, List.singleton_append] at hnext
      rw [List.filterMap_cons, ← hnext]
      cases hfile : tree.collectFile current parsers o p.path with
      | error fault =>
          rw [collectAll_concat_of_error hfile]
          rfl
      | ok chunks =>
          rw [← put_collectAll hplaces hp hfile]
          change Request.putAll _ (Report.put _ (Place.shown current (Path.ofString p.path).names) _) _ = _
          rw [Place.ofString_path hp]

end FileTree

end Chunkwise
