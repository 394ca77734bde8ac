import Chunkwise.Proofs.Chunkers
import Chunkwise.Proofs.Files.Tree
import Chunkwise.Proofs.Strategy

namespace Chunkwise

variable {tree : FileTree} {current place names : Place} {parsers : Parsers} {o : Options}
  {extensions : List String} {path : String} {content : Content} {fault : Fault}

theorem Content.file_of_text_error (h : content.text = .error fault) : ∃ cause, fault = .file cause := by
  cases content with
  | bytes b => cases h
  | folder =>
      cases h
      exact ⟨.isFolder, rfl⟩
  | unreadable =>
      cases h
      exact ⟨.unreadable, rfl⟩

namespace FileTree

def PathsBefore (a b : String) : Prop :=
  List.Lex (· < ·) (Path.ofString a).names (Path.ofString b).names

structure Takes (tree : FileTree) (extensions : List String) (place names : Place) : Prop where
  listed : names ∈ tree.listed place
  file : ∃ content, tree.at? (place ++ names) = some content ∧ content ≠ .folder
  ending : lowerCase (Path.suffix ⟨"", names⟩) ∈
    if extensions = [] then Strategy.supportedExtensions else extensions
  kept : ∀ n ∈ names, n ∉ passedOver

theorem isWanted_iff : isWanted extensions names = true ↔
    lowerCase (Path.suffix ⟨"", names⟩) ∈ extensions ∧ ∀ n ∈ names, n ∉ passedOver := by
  simp [isWanted]

theorem takes_iff (hat : tree.at? (place ++ names) = some content) :
    tree.Takes extensions place names ↔
      names ∈ tree.listed place ∧ (!content.isFolder && isWanted (endings extensions) names) = true := by
  rw [Bool.and_eq_true, Bool.not_eq_true', Bool.eq_false_iff, ne_eq, Content.isFolder_iff, isWanted_iff,
    endings]
  simp only [List.isEmpty_iff]
  constructor
  · rintro ⟨hlisted, ⟨found, hfound, hfile⟩, hending, hkept⟩
    cases hat.symm.trans hfound
    exact ⟨hlisted, hfile, hending, hkept⟩
  · rintro ⟨hlisted, hfile, hending, hkept⟩
    exact ⟨hlisted, ⟨content, hat, hfile⟩, hending, hkept⟩

theorem mem_takenBelow_iff :
    names ∈ tree.takenBelow extensions place ↔ tree.Takes extensions place names := by
  rw [takenBelow, List.mem_filter]
  constructor
  · rintro ⟨hlisted, htaken⟩
    obtain ⟨⟨-, content, hat⟩, -⟩ := mem_listed_iff.mp hlisted
    rw [hat] at htaken
    exact (takes_iff hat).mpr ⟨hlisted, htaken⟩
  · intro htakes
    obtain ⟨content, hat, -⟩ := htakes.file
    rw [hat]
    exact (takes_iff hat).mp htakes

def AllFound (tree : FileTree) (current : Place) (path : String) (place : Place) : Prop :=
  ∀ names ∈ tree.listed place, ∃ content, tree.read current (Path.below path names) = .ok content

theorem allFound_iff : tree.AllFound current path place ↔
    ∀ names ∈ tree.namesBelow place, tree.lists place names = true →
      (tree.read current (Path.below path names)).toOption.isSome = true := by
  simp only [AllFound, listed, List.mem_filter, mem_below, and_imp, Option.isSome_iff_exists,
    toOption_eq_some]

instance (tree : FileTree) (current : Place) (path : String) (place : Place) :
    Decidable (tree.AllFound current path place) :=
  decidable_of_iff _ allFound_iff.symm

theorem isName_of_mem_listed (h : tree.WellFormed) (hlisted : names ∈ tree.listed place) :
    ∀ n ∈ names, Path.IsName n := by
  obtain ⟨⟨-, content, hat⟩, -⟩ := mem_listed_iff.mp hlisted
  exact isName_of_at?_append h hat

theorem pathsBefore_below {names' : Place} (hnames : ∀ n ∈ names, Path.IsName n)
    (hnames' : ∀ n ∈ names', Path.IsName n) (h : List.Lex (· < ·) names names') :
    PathsBefore (Path.below path names) (Path.below path names') := by
  rw [PathsBefore, Path.ofString_below hnames, Path.ofString_below hnames']
  exact h.append_left _ (Path.ofString path).names

theorem file_of_collectFile_error (ho : o.IsValid) (hread : tree.read current path = .ok content)
    (h : tree.collectFile current parsers o path = .error fault) : ∃ cause, fault = .file cause := by
  rw [collectFile_of_read parsers o hread, Feed.collect] at h
  split at h
  · cases h
  · next other hfault =>
      cases h
      exact Content.file_of_text_error (Strategy.text_of_fault ho hfault)

theorem isTaken_cases (extensions : List String) (h : tree.WellFormed)
    (hfolder : tree.resolve current (Path.ofString path).toString = .ok (place, .folder))
    (hlisted : names ∈ tree.listed place) :
    (∃ content, tree.at? (place ++ names) = some content ∧
        tree.read current (Path.below path names) = .ok content ∧
        tree.isTaken current extensions (Path.ofString path) names =
          .ok (!content.isFolder && isWanted extensions names)) ∨
      ∃ cause, tree.read current (Path.below path names) = .error (.file cause) ∧
        tree.isTaken current extensions (Path.ofString path) names = .error (.file cause) := by
  obtain ⟨⟨hne, content, hat⟩, -⟩ := mem_listed_iff.mp hlisted
  rcases resolve_append h (Path.isNormal_ofString path) hfolder hat hne with
    hfound | ⟨fault, hfault, hbarrier⟩
  · refine .inl ⟨content, hat, ?_, ?_⟩
    · rw [read, Path.below, hfound]
      rfl
    · rw [isTaken, find_of_ok hfound]
      rfl
  · refine .inr ?_
    rw [read, Path.below, hfault, isTaken, find_of_barrier hfault hbarrier]
    cases hbarrier with
    | denied => exact ⟨.denied, rfl, rfl⟩
    | tooLong => exact ⟨.tooLong, rfl, rfl⟩

theorem listing_cases (tree : FileTree) (current place : Place) (path : String) :
    tree.listing (Path.ofString path) place = .ok (tree.listed place) ∨
      tree.listing (Path.ofString path) place = .error (.file .tooLong) ∧
        ∃ names ∈ tree.listed place,
          tree.read current (Path.below path names) = .error (.file .tooLong) := by
  rw [listing]
  split
  · next hlong =>
      obtain ⟨names, hlisted, hlong⟩ := List.any_eq_true.mp hlong
      rw [Bool.and_eq_true, decide_eq_true_eq] at hlong
      refine .inr ⟨rfl, names, hlisted, ?_⟩
      rw [read, Path.below, resolve_of_long hlong.2]
      rfl
  · exact .inl rfl

theorem collectFolder_cases (parsers : Parsers) (extensions : List String) (h : tree.WellFormed)
    (ho : o.IsValid)
    (hfolder : tree.resolve current (Path.ofString path).toString = .ok (place, .folder)) :
    (∃ files, tree.collectFolder current parsers o extensions path = .ok files ∧
        tree.collectBelow current parsers o (endings extensions) (Path.ofString path)
          (tree.listed place) = .ok files) ∨
      ∃ names ∈ tree.listed place, ∃ cause,
        tree.read current (Path.below path names) = .error (.file cause) ∧
        tree.collectFolder current parsers o extensions path = .error (.file cause) := by
  rw [collectFolder_of_folder (find_of_ok hfolder)]
  rcases listing_cases tree current place path with hlisting | ⟨hlisting, names, hlisted, hlong⟩
  · rw [hlisting]
    have hfiles : ∀ names ∈ tree.listed place,
        tree.isTaken current (endings extensions) (Path.ofString path) names = .ok true → ∀ fault,
        tree.collectFile current parsers o ((Path.ofString path).append names).toString =
          .error fault → ∃ cause, fault = .file cause := by
      intro names hlisted htaken fault hfault
      rcases isTaken_cases (endings extensions) h hfolder hlisted with
        ⟨content, -, hread, -⟩ | ⟨cause, -, hbarred⟩
      · exact file_of_collectFile_error ho hread hfault
      · rw [htaken] at hbarred
        cases hbarred
    rcases collectBelow_cases hfiles with ⟨files, hok⟩ | ⟨names, hlisted, fault, hbarred, hfault⟩
    · exact .inl ⟨files, hok, hok⟩
    · rcases isTaken_cases (endings extensions) h hfolder hlisted with
        ⟨content, -, -, htaken⟩ | ⟨cause, hread, hbarred'⟩
      · rw [htaken] at hbarred
        cases hbarred
      · cases hbarred.symm.trans hbarred'
        exact .inr ⟨names, hlisted, cause, hread, hfault⟩
  · rw [hlisting]
    exact .inr ⟨names, hlisted, .tooLong, hlong, rfl⟩

theorem collectBelow_of_collectFolder {files : List (String × List Chunk)}
    (hfolder : tree.resolve current (Path.ofString path).toString = .ok (place, .folder))
    (hfiles : tree.collectFolder current parsers o extensions path = .ok files) :
    tree.collectBelow current parsers o (endings extensions) (Path.ofString path)
      (tree.listed place) = .ok files := by
  rw [collectFolder_of_folder (find_of_ok hfolder)] at hfiles
  rcases listing_cases tree current place path with hlisting | ⟨hlisting, -⟩
  · rw [hlisting] at hfiles
    exact hfiles
  · rw [hlisting] at hfiles
    cases hfiles

theorem allFound_of_collectBelow (h : tree.WellFormed)
    (hfolder : tree.resolve current (Path.ofString path).toString = .ok (place, .folder))
    {files : List (String × List Chunk)}
    (hfiles : tree.collectBelow current parsers o (endings extensions) (Path.ofString path)
      (tree.listed place) = .ok files) : tree.AllFound current path place := by
  intro names hlisted
  obtain ⟨taken, htaken, -⟩ := collectBelow_eq_ok hfiles
  rcases isTaken_cases (endings extensions) h hfolder hlisted with
    ⟨content, -, hread, -⟩ | ⟨cause, -, hbarred⟩
  · exact ⟨content, hread⟩
  · rw [htaken names hlisted] at hbarred
    cases hbarred

theorem collectBelow_eq_takenBelow (h : tree.WellFormed)
    (hfolder : tree.resolve current (Path.ofString path).toString = .ok (place, .folder))
    {files : List (String × List Chunk)}
    (hfiles : tree.collectBelow current parsers o (endings extensions) (Path.ofString path)
      (tree.listed place) = .ok files) :
    files = ((tree.takenBelow extensions place).map (Path.below path)).filterMap fun file =>
      (tree.collectFile current parsers o file).toOption.map (file, ·) := by
  obtain ⟨taken, htaken, rfl⟩ := collectBelow_eq_ok hfiles
  have hsame : (tree.listed place).filter taken = tree.takenBelow extensions place := by
    rw [takenBelow]
    apply List.filter_congr
    intro names hlisted
    have htaken := htaken names hlisted
    rcases isTaken_cases (endings extensions) h hfolder hlisted with
      ⟨content, hat, -, hfound⟩ | ⟨cause, -, hbarred⟩
    · rw [hat]
      exact Except.ok.inj (htaken.symm.trans hfound)
    · rw [htaken] at hbarred
      cases hbarred
  rw [hsame, List.filterMap_map]
  rfl

theorem exists_collectFolder (extensions : List String) (h : tree.WellFormed) (ho : o.IsValid)
    (hfolder : tree.resolve current (Path.ofString path).toString = .ok (place, .folder))
    (hfound : tree.AllFound current path place) :
    ∃ files, tree.collectFolder current parsers o extensions path = .ok files ∧
      (files.map (·.1)).Pairwise PathsBefore ∧
      ∀ file chunks, (file, chunks) ∈ files ↔
        ∃ names, file = Path.below path names ∧ tree.Takes extensions place names ∧
          tree.collectFile current parsers o file = .ok chunks := by
  rcases collectFolder_cases parsers extensions h ho hfolder with
    ⟨files, hok, hbelow⟩ | ⟨names, hlisted, cause, hbarred, -⟩
  · obtain rfl := collectBelow_eq_takenBelow h hfolder hbelow
    refine ⟨_, hok, ?_, ?_⟩
    · refine List.Pairwise.sublist (sublist_filterMap_toOption _ _) ?_
      rw [List.pairwise_map]
      refine ((pairwise_listed tree place).filter _).imp_of_mem fun {a b} ha hb hab => ?_
      exact pathsBefore_below (isName_of_mem_listed h (List.mem_of_mem_filter ha))
        (isName_of_mem_listed h (List.mem_of_mem_filter hb)) hab
    · intro file chunks
      simp only [List.mem_filterMap, List.mem_map, mem_takenBelow_iff, Option.map_eq_some_iff,
        toOption_eq_some, Prod.mk.injEq]
      constructor
      · rintro ⟨_, ⟨names, htakes, rfl⟩, _, hok, rfl, rfl⟩
        exact ⟨names, rfl, htakes, hok⟩
      · rintro ⟨names, rfl, htakes, hok⟩
        exact ⟨_, ⟨names, htakes, rfl⟩, chunks, hok, rfl, rfl⟩
  · obtain ⟨content, hread⟩ := hfound names hlisted
    rw [hread] at hbarred
    cases hbarred

theorem read_of_allFound (h : tree.WellFormed)
    (hfolder : tree.resolve current (Path.ofString path).toString = .ok (place, .folder))
    (hfound : tree.AllFound current path place) (hlisted : names ∈ tree.listed place)
    (hat : tree.at? (place ++ names) = some content) :
    tree.read current (Path.below path names) = .ok content := by
  rcases isTaken_cases [] h hfolder hlisted with ⟨other, hother, hread, -⟩ | ⟨cause, hbarred, -⟩
  · cases hat.symm.trans hother
    exact hread
  · obtain ⟨other, hread⟩ := hfound names hlisted
    rw [hread] at hbarred
    cases hbarred

theorem exists_taken_iff {chunks : List Chunk} (h : tree.WellFormed)
    (hfolder : tree.resolve current (Path.ofString path).toString = .ok (place, .folder))
    (hfound : tree.AllFound current path place) (hat : tree.at? (place ++ names) = some content) :
    (∃ names', Path.below path names = Path.below path names' ∧
      tree.Takes extensions place names' ∧
      tree.collectFile current parsers o (Path.below path names) = .ok chunks) ↔
      (names ∈ tree.listed place ∧
        (!content.isFolder && isWanted (endings extensions) names) = true) ∧
      ((Strategy.select (Path.below path names) content.size).feed parsers (.ok content) o).collect =
        .ok chunks := by
  rw [← takes_iff hat]
  constructor
  · rintro ⟨names', hpath, htakes, hchunks⟩
    obtain rfl := Path.below_inj (isName_of_at?_append h hat) (isName_of_mem_listed h htakes.listed) hpath
    rw [collectFile_of_read parsers o (read_of_allFound h hfolder hfound htakes.listed hat)] at hchunks
    exact ⟨htakes, hchunks⟩
  · rintro ⟨htakes, hchunks⟩
    refine ⟨names, rfl, htakes, ?_⟩
    rw [collectFile_of_read parsers o (read_of_allFound h hfolder hfound htakes.listed hat), hchunks]

theorem exists_chunkFolder (k : Chunkers) (extensions : List String) (h : tree.WellFormed)
    (ho : o.IsValid)
    (hfolder : tree.resolve current (Path.ofString path).toString = .ok (place, .folder))
    (hfound : tree.AllFound current path place) :
    ∃ files k', k.chunkFolder tree current o extensions path = .ok (files, k') ∧
      (files.map (·.1)).Pairwise PathsBefore ∧
      ∀ file chunks, (file, chunks) ∈ files ↔
        ∃ names, file = Path.below path names ∧ tree.Takes extensions place names ∧
          tree.collectFile current k.parsers o file = .ok chunks := by
  obtain ⟨files, hfiles, hordered, hmem⟩ := exists_collectFolder extensions h ho hfolder hfound
  have hagrees := k.chunkFolder_agrees tree current o extensions path
  rw [hfiles] at hagrees
  obtain ⟨k', hrun, -⟩ := hagrees.of_ok
  exact ⟨files, k', hrun, hordered, hmem⟩

theorem chunkFolder_of_lost (k : Chunkers) (extensions : List String) (h : tree.WellFormed)
    (ho : o.IsValid)
    (hfolder : tree.resolve current (Path.ofString path).toString = .ok (place, .folder))
    (hlost : ¬ tree.AllFound current path place) :
    ∃ names ∈ tree.listed place, ∃ cause,
      tree.read current (Path.below path names) = .error (.file cause) ∧
      k.chunkFolder tree current o extensions path = .error (.file cause) := by
  rcases collectFolder_cases k.parsers extensions h ho hfolder with
    ⟨files, -, hbelow⟩ | ⟨names, hlisted, cause, hbarred, hfault⟩
  · exact absurd (allFound_of_collectBelow h hfolder hbelow) hlost
  · have hagrees := k.chunkFolder_agrees tree current o extensions path
    rw [hfault] at hagrees
    exact ⟨names, hlisted, cause, hbarred, hagrees.of_error⟩

theorem chunkFolder_isolates (k : Chunkers) (extensions : List String) (h : tree.WellFormed)
    (ho : o.IsValid)
    (hfolder : tree.resolve current (Path.ofString path).toString = .ok (place, .folder)) :
    (tree.AllFound current path place →
      ∃ files k', k.chunkFolder tree current o extensions path = .ok (files, k') ∧
        (files.map (·.1)).Pairwise PathsBefore ∧
        (∀ file chunks, (file, chunks) ∈ files ↔
          ∃ names, file = Path.below path names ∧ tree.Takes extensions place names ∧
            tree.collectFile current k.parsers o file = .ok chunks) ∧
        (∀ names, tree.Takes extensions place names → ∀ fault,
          tree.collectFile current k.parsers o (Path.below path names) = .error fault →
            ∃ cause, fault = .file cause) ∧
        ∀ (tree' : FileTree) (k₁ : Chunkers), tree'.WellFormed → k₁.parsers = k.parsers →
          tree'.resolve current (Path.ofString path).toString = .ok (place, .folder) →
          tree'.AllFound current path place →
          ∃ files' k₁', k₁.chunkFolder tree' current o extensions path = .ok (files', k₁') ∧
            ∀ names content, tree.at? (place ++ names) = some content →
              tree'.at? (place ++ names) = some content →
              tree'.lists place names = tree.lists place names → ∀ chunks,
              ((Path.below path names, chunks) ∈ files' ↔ (Path.below path names, chunks) ∈ files)) ∧
    (¬ tree.AllFound current path place →
      ∃ names ∈ tree.listed place, ∃ cause,
        tree.read current (Path.below path names) = .error (.file cause) ∧
        k.chunkFolder tree current o extensions path = .error (.file cause)) := by
  constructor
  · intro hfound
    obtain ⟨files, k', hrun, hordered, hmem⟩ := exists_chunkFolder k extensions h ho hfolder hfound
    refine ⟨files, k', hrun, hordered, hmem, ?_, ?_⟩
    · intro names htakes fault hfault
      obtain ⟨content, hread⟩ := hfound names htakes.listed
      exact file_of_collectFile_error ho hread hfault
    · intro tree' k₁ h' hparsers hfolder' hfound'
      obtain ⟨files', k₁', hrun', -, hmem'⟩ :=
        exists_chunkFolder k₁ extensions h' ho hfolder' hfound'
      refine ⟨files', k₁', hrun', fun names content hat hat' hlists chunks => ?_⟩
      have hlisted : names ∈ tree'.listed place ↔ names ∈ tree.listed place := by
        rw [mem_listed_iff, mem_listed_iff, hlists, hat, hat']
      rw [hmem', hmem, exists_taken_iff h hfolder hfound hat,
        exists_taken_iff h' hfolder' hfound' hat', hlisted, hparsers]
  · exact chunkFolder_of_lost k extensions h ho hfolder

def shelf : FileTree where
  entries := [(["p", "b.md"], .bytes "# B\n".toUTF8), (["p", "a.py"], .unreadable),
    (["p", "build", "c.md"], .bytes "# C\n".toUTF8)]

def shutShelf : FileTree where
  entries := shelf.entries.take 1 ++ [(["p", "sub", "d.md"], .bytes "# D\n".toUTF8)]
  unsearched := [["p", "sub"]]

theorem chunkFolder_isolates_shelf :
    (∃ files k', (Chunkers.new .none).chunkFolder shelf [] {} [] "p" = .ok (files, k') ∧
      (∃ chunks, ("p/b.md", chunks) ∈ files) ∧ (∀ chunks, ("p/a.py", chunks) ∉ files) ∧
      ∃ files' k₁', (Chunkers.new .none).chunkFolder ⟨shelf.entries.take 1, [], []⟩ [] {} [] "p" =
          .ok (files', k₁') ∧
        ∀ chunks, ("p/b.md", chunks) ∈ files' ↔ ("p/b.md", chunks) ∈ files) ∧
    ∃ fault, (Chunkers.new .none).chunkFolder shutShelf [] {} [] "p" = .error fault := by
  have hvalid : Options.IsValid {} := ⟨by simp, by simp⟩
  constructor
  · obtain ⟨files, k', hrun, -, hmem, -, hothers⟩ :=
      (chunkFolder_isolates (.new .none) [] (by decide +kernel) hvalid
        (show shelf.resolve [] (Path.ofString "p").toString = .ok (["p"], .folder) by rfl)).1
        (by decide +kernel)
    obtain ⟨files', k₁', hrun', hsame⟩ := hothers ⟨shelf.entries.take 1, [], []⟩ (.new .none)
      (by decide +kernel) rfl (by rfl) (by decide +kernel)
    refine ⟨files, k', hrun, ?_, fun chunks hchunks => ?_, files', k₁', hrun',
      hsame ["b.md"] _ rfl rfl rfl⟩
    · have hread : (shelf.collectFile [] .none {} "p/b.md").toOption.isSome = true := by
        decide +kernel
      obtain ⟨chunks, hchunks⟩ := Option.isSome_iff_exists.mp hread
      exact ⟨chunks, (hmem _ _).mpr ⟨["b.md"], rfl,
        ⟨mem_listed_iff.mpr ⟨⟨by decide, _, rfl⟩, rfl⟩, ⟨_, rfl, by simp⟩, by decide +kernel, by decide⟩,
        toOption_eq_some.mp hchunks⟩⟩
    · have hunread : (shelf.collectFile [] .none {} "p/a.py").toOption.isSome = false := by
        decide +kernel
      obtain ⟨-, -, -, hcollect⟩ := (hmem _ _).mp hchunks
      change shelf.collectFile [] .none {} "p/a.py" = .ok chunks at hcollect
      rw [hcollect] at hunread
      cases hunread
  · obtain ⟨names, -, cause, -, hfault⟩ :=
      (chunkFolder_isolates (.new .none) [] (by decide +kernel) hvalid
        (show shutShelf.resolve [] (Path.ofString "p").toString = .ok (["p"], .folder) by rfl)).2
        (by decide +kernel)
    exact ⟨_, hfault⟩

theorem chunkFolder_shutShelf :
    shutShelf.WellFormed ∧ shutShelf.Takes [] ["p"] ["b.md"] ∧
      (∃ chunks, shutShelf.collectFile [] .none {} "p/b.md" = .ok chunks) ∧
      (Chunkers.new .none).chunkFolder shutShelf [] {} [] "p" = .error (.file .denied) := by
  have hread : (shutShelf.collectFile [] .none {} "p/b.md").toOption.isSome = true := by
    decide +kernel
  obtain ⟨chunks, hchunks⟩ := Option.isSome_iff_exists.mp hread
  have hshelf : shutShelf.WellFormed := by decide +kernel
  refine ⟨hshelf, ⟨mem_listed_iff.mpr ⟨⟨by decide, _, rfl⟩, rfl⟩, ⟨_, rfl, by simp⟩,
    by decide +kernel, by decide⟩, ⟨chunks, toOption_eq_some.mp hchunks⟩, ?_⟩
  have hdenied : ∀ names ∈ shutShelf.namesBelow ["p"],
      (shutShelf.read [] (Path.below "p" names)).toOption.isSome = true ∨
        (shutShelf.read [] (Path.below "p" names)).map (fun _ => ()) = .error (.file .denied) := by
    decide +kernel
  obtain ⟨names, hlisted, cause, hbarred, hfault⟩ :=
    chunkFolder_of_lost (.new .none) [] hshelf (o := {}) ⟨by simp, by simp⟩
      (show shutShelf.resolve [] (Path.ofString "p").toString = .ok (["p"], .folder) by rfl)
      (by decide +kernel)
  have hcause := hdenied names (mem_below.mp (List.mem_of_mem_filter hlisted))
  rw [hbarred] at hcause
  obtain rfl : cause = .denied := by simpa [Except.toOption, Except.map] using hcause
  exact hfault

end FileTree

end Chunkwise
