import Chunkwise.Proofs.Command.Report
import Chunkwise.Proofs.Files.Folder
import Chunkwise.Proofs.Filter.Breakdown

namespace Chunkwise

open Chunkers (Agrees)

variable {tree : FileTree} {current place : Place} {parsers : Parsers} {o : Options}
  {content : Content} {places : List Place} {files : List (String × List Chunk)} {fault : Fault}

namespace FileTree

def filesAt (tree : FileTree) (place : Place) : List Place :=
  match tree.at? place with
  | some .folder => (tree.takenBelow [] place).map (place ++ ·)
  | _ => [place]

def collectPlace (tree : FileTree) (current : Place) (parsers : Parsers) (o : Options)
    (place : Place) : Except Fault (List (String × List Chunk)) :=
  match tree.at? place with
  | some .folder => tree.chunkFolder current parsers o [] place.path
  | _ => (tree.collectFile current parsers o place.path).map fun chunks => [(place.path, chunks)]

theorem resolve_path (h : tree.WellFormed) (hat : tree.at? place = some content) :
    tree.resolve current place.path = .ok (place, content) ∨
      ∃ fault, tree.resolve current place.path = .error fault ∧ Barrier fault := by
  rw [Place.path, resolve_toString (Place.isNormal_root (isName_of_at? h hat)) (by simp) rfl]
  split
  · exact .inr ⟨_, rfl, .tooLong⟩
  · exact follow_names h hat

theorem isName_of_mem_filesAt (h : tree.WellFormed) (hat : tree.at? place = some content) {p : Place}
    (hp : p ∈ tree.filesAt place) : ∀ n ∈ p, Path.IsName n := by
  rw [filesAt] at hp
  split at hp
  · obtain ⟨names, htaken, rfl⟩ := List.mem_map.mp hp
    obtain ⟨content, hfile, -⟩ := (mem_takenBelow_iff.mp htaken).file
    exact isName_of_at? h hfile
  · obtain rfl := List.mem_singleton.mp hp
    exact isName_of_at? h hat

theorem isName_of_mem_flatMap (h : tree.WellFormed) (hplaces : ∀ p ∈ places, tree.at? p ≠ none) :
    ∀ p ∈ places.flatMap tree.filesAt, ∀ n ∈ p, Path.IsName n := by
  intro q hq
  obtain ⟨p, hp, hq⟩ := List.mem_flatMap.mp hq
  obtain ⟨content, hat⟩ := Option.ne_none_iff_exists'.mp (hplaces p hp)
  exact isName_of_mem_filesAt h hat hq

theorem collectPlace_of_file (h : tree.at? place ≠ some .folder) :
    tree.collectPlace current parsers o place =
      (tree.collectFile current parsers o place.path).map fun chunks => [(place.path, chunks)] := by
  rw [collectPlace]
  split
  · contradiction
  · rfl

theorem filesAt_of_file (h : tree.at? place ≠ some .folder) : tree.filesAt place = [place] := by
  rw [filesAt]
  split
  · contradiction
  · rfl

theorem find_path (h : tree.WellFormed) (hat : tree.at? place = some content)
    (hok : tree.collectPlace current parsers o place = .ok files) :
    tree.resolve current place.path = .ok (place, content) := by
  rcases resolve_path h hat with hfound | ⟨fault, hfault, hbarrier⟩
  · exact hfound
  · by_cases hfolder : tree.at? place = some .folder
    · rw [collectPlace, hfolder] at hok
      dsimp only at hok
      have hwritten : (Path.ofString place.path).toString = place.path := by
        rw [Place.ofString_path (isName_of_at? h hat)]
        rfl
      have hlost : tree.find current (Path.ofString place.path).toString = .error fault := by
        rw [hwritten, find_of_barrier hfault hbarrier]
      rw [chunkFolder_eq, collectFolder_of_error hlost] at hok
      cases hok
    · rw [collectPlace_of_file hfolder] at hok
      obtain ⟨chunks, hchunks, -⟩ := map_eq_ok hok
      rw [collectFile, chunkFile, read, hfault] at hchunks
      cases hchunks

theorem collectPlace_eq_ok (h : tree.WellFormed) (hat : tree.at? place = some content)
    (hok : tree.collectPlace current parsers o place = .ok files) :
    files = (tree.filesAt place).filterMap fun p =>
      (tree.collectFile current parsers o p.path).toOption.map (p.path, ·) := by
  by_cases hfolder : tree.at? place = some .folder
  · have hresolve : tree.resolve current (Path.ofString place.path).toString =
        .ok (place, .folder) := by
      rw [Place.ofString_path (isName_of_at? h hat)]
      exact find_path h hfolder hok
    rw [collectPlace, hfolder] at hok
    dsimp only at hok
    rw [chunkFolder_eq] at hok
    have hpaths : Path.below place.path = fun names => Place.path (place ++ names) :=
      funext (Place.below_path (isName_of_at? h hat))
    rw [collectBelow_eq_takenBelow h hresolve (collectBelow_of_collectFolder hresolve hok), filesAt,
      hfolder, hpaths]
    simp only [List.filterMap_map]
    rfl
  · rw [collectPlace_of_file hfolder] at hok
    obtain ⟨chunks, hchunks, rfl⟩ := map_eq_ok hok
    simp [filesAt_of_file hfolder, hchunks, Except.toOption]

end FileTree

namespace Request

theorem chunkPlace_of_file (k : Chunkers) (h : tree.at? place ≠ some .folder) :
    chunkPlace tree current o k place =
      (k.chunkFile tree current o place.path).1.map fun chunks =>
        ([(place.path, chunks)], (k.chunkFile tree current o place.path).2) := by
  rw [chunkPlace]
  split
  · contradiction
  · rfl

theorem chunkPlace_agrees (k : Chunkers) (tree : FileTree) (current : Place) (o : Options)
    (place : Place) :
    Agrees k.parsers (chunkPlace tree current o k place)
      (tree.collectPlace current k.parsers o place) := by
  by_cases hfolder : tree.at? place = some .folder
  · rw [chunkPlace, FileTree.collectPlace, hfolder]
    dsimp only
    rw [FileTree.chunkFolder_eq]
    exact k.chunkFolder_agrees tree current o [] place.path
  · rw [chunkPlace_of_file k hfolder, FileTree.collectPlace_of_file hfolder, ← k.fst_chunkFile]
    have hparsers := k.parsers_chunkFile tree current o place.path
    cases (k.chunkFile tree current o place.path).1 with
    | error fault => exact .error fault
    | ok chunks => exact .ok _ hparsers

theorem addPlace_agrees (k : Chunkers) (h : tree.WellFormed) (hat : tree.at? place = some content)
    (hplaces : ∀ p ∈ places, ∀ n ∈ p, Path.IsName n) :
    Agrees k.parsers
      (addPlace tree current o
        (Report.ofFiles current (tree.collectAll current k.parsers o places), k) place)
      ((tree.collectPlace current k.parsers o place).map fun _ =>
        Report.ofFiles current
          (tree.collectAll current k.parsers o (places ++ tree.filesAt place))) := by
  have hnames := fun p (hp : p ∈ tree.filesAt place) => FileTree.isName_of_mem_filesAt h hat hp
  change Agrees _ (addPlace _ _ _ _ _) ((fun _ => _) <$> tree.collectPlace current k.parsers o place)
  rw [map_eq_pure_bind, addPlace]
  refine (chunkPlace_agrees k tree current o place).bind fun files k' hfiles hparsers => ?_
  rw [FileTree.collectPlace_eq_ok h hat hfiles]
  change Agrees _ (.ok (putAll current _ _, k')) (.ok _)
  rw [FileTree.putAll_collectAll hplaces hnames]
  exact .ok _ hparsers

theorem foldlM_agrees (k : Chunkers) (h : tree.WellFormed) {done : List Place}
    (hplaces : ∀ p ∈ places, tree.at? p ≠ none) (hdone : ∀ p ∈ done, ∀ n ∈ p, Path.IsName n) :
    Agrees k.parsers
      (places.foldlM (addPlace tree current o)
        (Report.ofFiles current (tree.collectAll current k.parsers o done), k))
      ((places.mapM (tree.collectPlace current k.parsers o)).map fun _ =>
        Report.ofFiles current
          (tree.collectAll current k.parsers o (done ++ places.flatMap tree.filesAt))) := by
  -- A run that breaks off leaves no report, so the places behind it are of no account.
  induction places generalizing k done with
  | nil =>
      rw [List.flatMap_nil, List.append_nil]
      exact .ok _ rfl
  | cons p places ih =>
      obtain ⟨hp, hplaces⟩ := List.forall_mem_cons.mp hplaces
      obtain ⟨content, hat⟩ := Option.ne_none_iff_exists'.mp hp
      have hdone' : ∀ q ∈ done ++ tree.filesAt p, ∀ n ∈ q, Path.IsName n := by
        intro q hq
        rcases List.mem_append.mp hq with hq | hq
        · exact hdone q hq
        · exact FileTree.isName_of_mem_filesAt h hat hq
      rw [List.foldlM_cons, List.flatMap_cons, ← List.append_assoc,
        map_mapM_cons p places (Report.ofFiles current
          (tree.collectAll current k.parsers o (done ++ tree.filesAt p)))]
      refine (addPlace_agrees k h hat hdone).bind fun report k' hreport hparsers => ?_
      obtain ⟨files, -, rfl⟩ := map_eq_ok hreport
      rw [← hparsers]
      exact ih k' hplaces hdone'

theorem report_eq (h : tree.WellFormed) (hplaces : ∀ p ∈ places, tree.at? p ≠ none) :
    report tree current parsers o places =
      (places.mapM (tree.collectPlace current parsers o)).map fun _ =>
        Report.ofFiles current
          (tree.collectAll current parsers o (places.flatMap tree.filesAt)) := by
  have hnone : ∀ p ∈ ([] : List Place), ∀ n ∈ p, Path.IsName n := by simp
  exact (foldlM_agrees (.new parsers) h hplaces hnone).map_fst

theorem filter_missing_eq_nil (h : ∀ p ∈ places, tree.at? p ≠ none) :
    (places.filter fun p => (tree.at? p).isNone) = [] := by
  apply List.filter_eq_nil_iff.mpr
  intro p hp
  simpa using h p hp

theorem run_of_failing {r : Request} (h : tree.WellFormed)
    (hfail : ∃ p ∈ r.paths.map (Place.ofPath current), tree.at? p = none ∨
      ∃ fault, tree.collectPlace current parsers r.options p = .error fault) :
    (r.run tree current parsers).exitCode = 1 ∧ (r.run tree current parsers).text = [] := by
  rw [run]
  split
  · exact ⟨rfl, rfl⟩
  · split
    · next hnone =>
        have hplaces : ∀ p ∈ r.paths.map (Place.ofPath current), tree.at? p ≠ none := by
          intro p hp hat
          have hkept := List.filter_eq_nil_iff.mp hnone p hp
          rw [hat] at hkept
          exact hkept rfl
        obtain ⟨p, hp, hat | ⟨fault, hfault⟩⟩ := hfail
        · exact absurd hat (hplaces p hp)
        · rw [report_eq h hplaces]
          cases hall : (r.paths.map (Place.ofPath current)).mapM
              (tree.collectPlace current parsers r.options) with
          | error fault => exact ⟨rfl, rfl⟩
          | ok found =>
              obtain ⟨files, hfiles⟩ := exists_ok_of_mapM hall p hp
              rw [hfault] at hfiles
              cases hfiles
    · exact ⟨rfl, rfl⟩

theorem run_of_ok {r : Request} (h : tree.WellFormed)
    (hplaces : ∀ p ∈ r.paths.map (Place.ofPath current), tree.at? p ≠ none ∧
      ∃ found, tree.collectPlace current parsers r.options p = .ok found) :
    ∃ report : Report,
      report = Report.ofFiles current (tree.collectAll current parsers r.options
        ((r.paths.map (Place.ofPath current)).flatMap tree.filesAt)) ∧
      r.run tree current parsers = ⟨0, report.lines r.asJson, r.reportLog report⟩ := by
  have hpresent := fun p hp => (hplaces p hp).1
  have hfound : ∀ p ∈ r.paths.map (Place.ofPath current),
      ∃ found, tree.find current p.path = .ok found := by
    intro p hp
    obtain ⟨content, hat⟩ := Option.ne_none_iff_exists'.mp (hpresent p hp)
    obtain ⟨files, hfiles⟩ := (hplaces p hp).2
    exact ⟨_, FileTree.find_of_ok (FileTree.find_path h hat hfiles)⟩
  obtain ⟨lookedUp, hlookedUp⟩ := exists_mapM_ok _ hfound
  obtain ⟨found, hfound⟩ := exists_mapM_ok _ fun p hp => (hplaces p hp).2
  refine ⟨_, rfl, ?_⟩
  simp only [run, hlookedUp, filter_missing_eq_nil hpresent, report_eq h hpresent, hfound]
  rfl

theorem length_lines (asJson : Bool) (report : Report) :
    (report.lines asJson).length = report.chunkCount := by
  rw [Report.lines, List.length_map, Report.length_chunks]

theorem filterLog_conserves (r : Request) (report : Report) :
    ∃ kept : Nat, ∃ count : Gate → Nat,
      r.filterLog report = ⟨.info, s!"Kept {kept} of {report.chunkCount} chunks"⟩ ::
        Gate.all.map (fun g => ⟨.info, s!"  {g.label}: {count g}"⟩) ∧
      kept + (Gate.all.map count).sum = report.chunkCount := by
  let candidates := report.chunks.map fun entry => Candidate.ofChunk entry.1 entry.2
  have hcount : candidates.length = report.chunkCount := by
    rw [List.length_map, Report.length_chunks]
  have hsize := FilterOptions.size_filter r.filterOptions candidates
  rw [← hcount]
  exact ⟨_, (r.filterOptions.filter candidates).breakdown.count, rfl, hsize⟩

theorem run_all_or_nothing (r : Request) (parsers : Parsers) (current : Place) (h : tree.WellFormed) :
    let places := r.paths.map (Place.ofPath current)
    let files := tree.collectAll current parsers r.options (places.flatMap tree.filesAt)
    let outcome := r.run tree current parsers
    ((∃ p ∈ places, tree.at? p = none ∨
        ∃ fault, tree.collectPlace current parsers r.options p = .error fault) →
      outcome.exitCode = 1 ∧ outcome.text = []) ∧
    ((∀ p ∈ places, tree.at? p ≠ none ∧
        ∃ found, tree.collectPlace current parsers r.options p = .ok found) →
      outcome.exitCode = 0 ∧
      outcome.lines = files.flatMap (fun (p, chunks) =>
        chunks.map fun c => Report.line r.asJson (Place.shown current p, c)) ∧
      (files.map fun f => Place.shown current f.1).Nodup ∧
      (r.filters = true → ∃ kept : Nat, ∃ count : Gate → Nat,
        outcome.log =
          ⟨.info, s!"Generated {outcome.lines.length} chunks from {files.length} files"⟩ ::
          ⟨.info, s!"Kept {kept} of {outcome.lines.length} chunks"⟩ ::
          Gate.all.map (fun g => ⟨.info, s!"  {g.label}: {count g}"⟩) ∧
        kept + (Gate.all.map count).sum = outcome.lines.length) ∧
      ((r.asJson = true ∨ ∀ f ∈ files, '\n' ∉ (Place.shown current f.1).toList ∧
          ∀ c ∈ f.2, '\n' ∉ (c.name.getD "").toList) →
        outcome.text.count '\n' = outcome.lines.length)) := by
  intro places files outcome
  constructor
  · exact run_of_failing h
  · intro hplaces
    obtain ⟨report, hreport, hrun⟩ := run_of_ok h hplaces
    change outcome = _ at hrun
    have hfiles : report.files.length = files.length := by rw [hreport, Report.ofFiles, List.length_map]
    have hlines : outcome.lines = files.flatMap fun (p, chunks) =>
        chunks.map fun c => Report.line r.asJson (Place.shown current p, c) := by
      rw [hrun, hreport]
      exact Report.lines_ofFiles r.asJson files
    have hcount : outcome.lines.length = report.chunkCount := by
      rw [hrun]
      exact length_lines r.asJson report
    refine ⟨by rw [hrun], hlines, ?_, ?_, ?_⟩
    · exact FileTree.nodup_shown (FileTree.isName_of_mem_flatMap h fun p hp => (hplaces p hp).1)
    · intro hfilters
      obtain ⟨kept, count, hlog, htotal⟩ := filterLog_conserves r report
      refine ⟨kept, count, ?_, by rw [hcount, htotal]⟩
      rw [hcount, ← hfiles, ← hlog, hrun]
      change r.reportLog report = _
      rw [reportLog, if_pos hfilters]
    · intro hclean
      apply Outcome.count_text
      rw [hrun, hreport]
      exact Report.newline_not_mem_lines hclean

theorem run_all_or_nothing_shelf :
    let r : Request := { paths := ["p/b.md", "p/../p/b.md"] }
    let r' : Request := { paths := ["p/b.md", "p/a.py"] }
    ((r.run FileTree.shelf [] .none).exitCode = 0 ∧
      (r.run FileTree.shelf [] .none).lines = ["p/b.md:1-1 line-based"]) ∧
    (r'.run FileTree.shelf [] .none).exitCode = 1 ∧ (r'.run FileTree.shelf [] .none).text = [] := by
  intro r r'
  have hshelf : FileTree.shelf.WellFormed := by decide +kernel
  have hplaces : ∀ p ∈ r.paths.map (Place.ofPath []), (FileTree.shelf.at? p).isSome = true ∧
      (FileTree.shelf.collectPlace [] .none r.options p).toOption.isSome = true := by decide +kernel
  constructor
  · obtain ⟨hexit, hlines, -⟩ := (run_all_or_nothing r .none [] hshelf).2 fun p hp => by
      obtain ⟨hat, hfiles⟩ := hplaces p hp
      obtain ⟨found, hfound⟩ := Option.isSome_iff_exists.mp hfiles
      exact ⟨Option.isSome_iff_ne_none.mp hat, found, toOption_eq_some.mp hfound⟩
    refine ⟨hexit, ?_⟩
    rw [hlines]
    decide +kernel
  · exact (run_all_or_nothing r' .none [] hshelf).1
      ⟨["p", "a.py"], by decide +kernel, .inr ⟨.file .unreadable, rfl⟩⟩

def splitName : FileTree where
  entries := [(["a\nb.txt"], .bytes "x\n".toUTF8)]

theorem runCommand_splitName_two_lines :
    (runCommand splitName [] ["a\nb.txt"]).exitCode = 0 ∧
      (runCommand splitName [] ["a\nb.txt"]).lines.length = 1 ∧
      (runCommand splitName [] ["a\nb.txt"]).text.count '\n' = 2 ∧
      (runCommand splitName [] ["a\nb.txt", "--json"]).lines.length = 1 ∧
      (runCommand splitName [] ["a\nb.txt", "--json"]).text.count '\n' = 1 := by
  decide +kernel

end Request

end Chunkwise
