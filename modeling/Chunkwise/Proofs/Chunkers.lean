import Chunkwise.Files.Chunks
import Chunkwise.Proofs.Assoc
import Chunkwise.Proofs.Files.Path
import Chunkwise.Proofs.Loops

namespace Chunkwise

variable {α : Type} {parsers : Parsers} {tree : FileTree} {current : Place} {o : Options}
  {extensions : List String} {path : String} {files : List (String × List Chunk)}

namespace FileTree

def collectFile (tree : FileTree) (current : Place) (parsers : Parsers) (o : Options)
    (path : String) : Except Fault (List Chunk) :=
  (tree.chunkFile current parsers o path).bind Feed.collect

def collectBelow (tree : FileTree) (current : Place) (parsers : Parsers) (o : Options)
    (extensions : List String) (folder : Path) : List Place → Except Fault (List (String × List Chunk))
  | [] => .ok []
  | names :: rest =>
      match tree.isTaken current extensions folder names with
      | .error fault => .error fault
      | .ok false => collectBelow tree current parsers o extensions folder rest
      | .ok true =>
          let path := (folder.append names).toString
          match tree.collectFile current parsers o path with
          | .ok chunks =>
              (collectBelow tree current parsers o extensions folder rest).map ((path, chunks) :: ·)
          | .error (.file _) => collectBelow tree current parsers o extensions folder rest
          | .error fault => .error fault

def collectFolder (tree : FileTree) (current : Place) (parsers : Parsers) (o : Options)
    (extensions : List String) (path : String) : Except Fault (List (String × List Chunk)) :=
  match tree.find current (Path.ofString path).toString with
  | .error fault => .error fault
  | .ok (some (place, .folder)) =>
      (tree.listing (Path.ofString path) place).bind
        (tree.collectBelow current parsers o (endings extensions) (Path.ofString path))
  | .ok _ => .ok []

theorem collectFile_of_read {content : Content} (parsers : Parsers) (o : Options)
    (h : tree.read current path = .ok content) :
    tree.collectFile current parsers o path =
      ((Strategy.select path content.size).feed parsers (.ok content) o).collect := by
  simp only [collectFile, chunkFile, h, bind, Except.bind, pure, Except.pure]

theorem collectFolder_of_error {fault : Fault}
    (h : tree.find current (Path.ofString path).toString = .error fault) :
    tree.collectFolder current parsers o extensions path = .error fault := by
  unfold collectFolder
  rw [h]

theorem collectFolder_of_folder {place : Place}
    (h : tree.find current (Path.ofString path).toString = .ok (some (place, .folder))) :
    tree.collectFolder current parsers o extensions path =
      (tree.listing (Path.ofString path) place).bind
        (tree.collectBelow current parsers o (endings extensions) (Path.ofString path)) := by
  unfold collectFolder
  rw [h]

section Below

variable {folder : Path} {places : List Place}

theorem collectBelow_eq_ok
    (h : tree.collectBelow current parsers o extensions folder places = .ok files) :
    ∃ taken : Place → Bool,
      (∀ names ∈ places, tree.isTaken current extensions folder names = .ok (taken names)) ∧
      files = (places.filter taken).filterMap fun names =>
        (tree.collectFile current parsers o (folder.append names).toString).toOption.map
          ((folder.append names).toString, ·) := by
  refine ⟨fun names => (tree.isTaken current extensions folder names).toOption.getD false, ?_⟩
  induction places generalizing files with
  | nil =>
      cases h
      exact ⟨by simp, rfl⟩
  | cons names places ih =>
      rw [collectBelow] at h
      rw [List.forall_mem_cons]
      cases htaken : tree.isTaken current extensions folder names with
      | error fault =>
          rw [htaken] at h
          cases h
      | ok taken =>
          rw [htaken] at h
          cases taken with
          | false =>
              obtain ⟨hall, rfl⟩ := ih h
              refine ⟨⟨by simp [htaken, Except.toOption], hall⟩, ?_⟩
              rw [List.filter_cons_of_neg (by simp [htaken, Except.toOption])]
          | true =>
              dsimp only at h
              rw [List.filter_cons_of_pos (by simp [htaken, Except.toOption]), List.filterMap_cons]
              split at h
              · next chunks hok =>
                  obtain ⟨others, hrest, rfl⟩ := map_eq_ok h
                  obtain ⟨hall, rfl⟩ := ih hrest
                  exact ⟨⟨by simp [htaken, Except.toOption], hall⟩, by rw [hok]; rfl⟩
              · next cause hfault =>
                  obtain ⟨hall, rfl⟩ := ih h
                  exact ⟨⟨by simp [htaken, Except.toOption], hall⟩, by rw [hfault]; rfl⟩
              · cases h

theorem collectBelow_cases (h : ∀ names ∈ places,
      tree.isTaken current extensions folder names = .ok true → ∀ fault,
      tree.collectFile current parsers o (folder.append names).toString = .error fault →
        ∃ cause, fault = .file cause) :
    (∃ files, tree.collectBelow current parsers o extensions folder places = .ok files) ∨
      ∃ names ∈ places, ∃ fault, tree.isTaken current extensions folder names = .error fault ∧
        tree.collectBelow current parsers o extensions folder places = .error fault := by
  induction places with
  | nil => exact .inl ⟨[], rfl⟩
  | cons names places ih =>
      obtain ⟨hnames, hplaces⟩ := List.forall_mem_cons.mp h
      have hrest := ih hplaces
      rw [List.exists_mem_cons_iff, collectBelow]
      cases htaken : tree.isTaken current extensions folder names with
      | error fault => exact .inr (.inl ⟨fault, rfl, rfl⟩)
      | ok taken =>
          cases taken with
          | false => exact hrest.imp id .inr
          | true =>
              dsimp only
              cases hfile : tree.collectFile current parsers o (folder.append names).toString with
              | ok chunks =>
                  rcases hrest with ⟨files, hfiles⟩ | ⟨barred, hmem, fault, hbarred, hfault⟩
                  · exact .inl ⟨_, by rw [hfiles]; rfl⟩
                  · exact .inr (.inr ⟨barred, hmem, fault, hbarred, by rw [hfault]; rfl⟩)
              | error fault =>
                  obtain ⟨cause, rfl⟩ := hnames htaken fault hfile
                  exact hrest.imp id .inr

end Below

def takenBelow (tree : FileTree) (extensions : List String) (place : Place) : List Place :=
  (tree.listed place).filter fun names =>
    (tree.at? (place ++ names)).any (!·.isFolder) && isWanted (endings extensions) names

end FileTree

namespace Chunkers

variable {k : Chunkers}

theorem fst_forProfile (k : Chunkers) (p : Profile) :
    (k.forProfile p).1 = ⟨p.language, k.parsers⟩ := by
  rw [forProfile]
  split
  · next c hkept => exact k.made_for _ (mem_of_lookup hkept)
  · rfl

theorem parsers_forProfile (k : Chunkers) (p : Profile) : (k.forProfile p).2.parsers = k.parsers := by
  rw [forProfile]
  split
  · rfl
  · rfl

theorem fst_feed (k : Chunkers) (source : Source) (o : Options) (strategy : Strategy) :
    (k.feed source o strategy).1 = strategy.feed k.parsers source o := by
  cases strategy with
  | boundaries p =>
      change (k.forProfile p).1.chunkSource _ _ _ = _
      rw [fst_forProfile]
      rfl
  | declarations => rfl
  | markdown => rfl
  | lines => rfl

theorem parsers_feed (k : Chunkers) (source : Source) (o : Options) (strategy : Strategy) :
    (k.feed source o strategy).2.parsers = k.parsers := by
  cases strategy with
  | boundaries p => exact k.parsers_forProfile p
  | declarations => rfl
  | markdown => rfl
  | lines => rfl

theorem chunkFile_of_read {content : Content} (k : Chunkers) (o : Options)
    (h : tree.read current path = .ok content) :
    k.chunkFile tree current o path =
      ((k.feed (.ok content) o (Strategy.select path content.size)).1.collect,
        (k.feed (.ok content) o (Strategy.select path content.size)).2) := by
  rw [chunkFile, h]

theorem fst_chunkFile (k : Chunkers) (tree : FileTree) (current : Place) (o : Options)
    (path : String) :
    (k.chunkFile tree current o path).1 = tree.collectFile current k.parsers o path := by
  cases hread : tree.read current path with
  | error fault => simp only [chunkFile, FileTree.collectFile, FileTree.chunkFile, hread, bind, Except.bind]
  | ok content => rw [k.chunkFile_of_read o hread, tree.collectFile_of_read k.parsers o hread, fst_feed]

theorem parsers_chunkFile (k : Chunkers) (tree : FileTree) (current : Place) (o : Options)
    (path : String) : (k.chunkFile tree current o path).2.parsers = k.parsers := by
  cases hread : tree.read current path with
  | error fault => rw [chunkFile, hread]
  | ok content => rw [k.chunkFile_of_read o hread, parsers_feed]

inductive Agrees (parsers : Parsers) : Except Fault (α × Chunkers) → Except Fault α → Prop
  | ok (x : α) {k : Chunkers} (h : k.parsers = parsers) : Agrees parsers (.ok (x, k)) (.ok x)
  | error (fault : Fault) : Agrees parsers (.error fault) (.error fault)

namespace Agrees

variable {e : Except Fault (α × Chunkers)} {fresh : Except Fault α}

theorem of_ok {x : α} (h : Agrees parsers e (.ok x)) :
    ∃ k, e = .ok (x, k) ∧ k.parsers = parsers := by
  cases h with
  | ok _ h => exact ⟨_, rfl, h⟩

theorem of_error {fault : Fault} (h : Agrees parsers e (.error fault)) : e = .error fault := by
  cases h with
  | error _ => rfl

theorem bind {β : Type} {next : α × Chunkers → Except Fault (β × Chunkers)}
    {freshNext : α → Except Fault β} (h : Agrees parsers e fresh)
    (hnext : ∀ x k, fresh = .ok x → k.parsers = parsers →
      Agrees parsers (next (x, k)) (freshNext x)) :
    Agrees parsers (e >>= next) (fresh >>= freshNext) := by
  cases h with
  | ok x h => exact hnext x _ rfl h
  | error fault => exact .error fault

theorem map_fst (h : Agrees parsers e fresh) : e.map (·.1) = fresh := by
  cases h with
  | ok x h => rfl
  | error fault => rfl

end Agrees

theorem chunkEach_agrees (k : Chunkers) (tree : FileTree) (current : Place) (o : Options)
    (extensions : List String) (folder : Path) (done : Array (String × List Chunk))
    (places : List Place) :
    Agrees k.parsers
      ((k.chunkEach tree current o extensions folder done places).map fun (files, k) =>
        (files.toList, k))
      ((tree.collectBelow current k.parsers o extensions folder places).map (done.toList ++ ·)) := by
  -- The run goes on with chunkers that were kept. All that matters of them is whose parsers they use.
  induction places generalizing k done with
  | nil =>
      have hdone : (Except.ok [] : Except Fault _).map (done.toList ++ ·) = .ok done.toList := by
        simp [Except.map]
      rw [FileTree.collectBelow, hdone]
      exact .ok done.toList rfl
  | cons names places ih =>
      rw [chunkEach, FileTree.collectBelow]
      cases tree.isTaken current extensions folder names with
      | error fault => exact .error fault
      | ok taken =>
          cases taken with
          | false => exact ih k done
          | true =>
              dsimp only
              have hfile := fst_chunkFile k tree current o (folder.append names).toString
              have hparsers := parsers_chunkFile k tree current o (folder.append names).toString
              rw [← hfile]
              rcases hrun : k.chunkFile tree current o (folder.append names).toString with ⟨made, k'⟩
              rw [hrun] at hparsers
              dsimp only at hparsers ⊢
              cases made with
              | ok chunks =>
                  have h := ih k' (done.push ((folder.append names).toString, chunks))
                  rw [hparsers] at h
                  cases hrest : tree.collectBelow current k.parsers o extensions folder places with
                  | error fault =>
                      rw [hrest] at h
                      exact h
                  | ok files =>
                      rw [hrest] at h
                      simpa [Except.map] using h
              | error fault =>
                  cases fault with
                  | file cause =>
                      have h := ih k' done
                      rw [hparsers] at h
                      exact h
                  | _ => exact .error _

theorem chunkFolder_agrees (k : Chunkers) (tree : FileTree) (current : Place) (o : Options)
    (extensions : List String) (path : String) :
    Agrees k.parsers (k.chunkFolder tree current o extensions path)
      (tree.collectFolder current k.parsers o extensions path) := by
  unfold chunkFolder FileTree.collectFolder
  dsimp only
  cases tree.find current (Path.ofString path).toString with
  | error fault => exact .error fault
  | ok found =>
      match found with
      | none => exact .ok [] rfl
      | some (place, .bytes b) => exact .ok [] rfl
      | some (place, .unreadable) => exact .ok [] rfl
      | some (place, .folder) =>
          dsimp only
          cases tree.listing (Path.ofString path) place with
          | error fault => exact .error fault
          | ok places =>
              have hnone : ∀ e : Except Fault (List (String × List Chunk)),
                  e.map ((#[] : Array (String × List Chunk)).toList ++ ·) = e := by
                intro e
                cases e <;> rfl
              change Agrees _ _ (tree.collectBelow _ _ _ _ _ places)
              rw [← hnone (tree.collectBelow _ _ _ _ _ _)]
              exact chunkEach_agrees k tree current o _ _ #[] places

end Chunkers

theorem FileTree.chunkFolder_eq (tree : FileTree) (current : Place) (parsers : Parsers) (o : Options)
    (extensions : List String) (path : String) :
    tree.chunkFolder current parsers o extensions path =
      tree.collectFolder current parsers o extensions path :=
  (Chunkers.chunkFolder_agrees (.new parsers) tree current o extensions path).map_fst

end Chunkwise
