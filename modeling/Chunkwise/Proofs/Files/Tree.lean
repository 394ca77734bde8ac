import Chunkwise.Files.Tree
import Chunkwise.Proofs.Assoc
import Chunkwise.Proofs.Files.Path
import Chunkwise.Proofs.Loops

namespace Chunkwise

theorem Content.isFolder_iff {c : Content} : c.isFolder = true ↔ c = .folder := by
  cases c <;> simp [isFolder]

instance (c : Content) : Decidable (c = .folder) :=
  decidable_of_iff _ Content.isFolder_iff

namespace FileTree

@[mk_iff]
structure WellFormed (tree : FileTree) : Prop where
  nodup : (tree.entries.map Prod.fst).Nodup
  named : ∀ e ∈ tree.entries, ∀ n ∈ e.1, Path.IsName n ∧ n ≠ ".."
  folder : ∀ e ∈ tree.entries, ∀ e' ∈ tree.entries, e.1 <+: e'.1 → e.1 ≠ e'.1 → e.2 = .folder

instance (tree : FileTree) : Decidable tree.WellFormed :=
  decidable_of_iff _ (wellFormed_iff tree).symm

variable {tree : FileTree} {current place base names pieces : Place} {content : Content} {p : Path}

theorem exists_at?_iff :
    (∃ content, tree.at? place = some content) ↔ place = [] ∨ ∃ e ∈ tree.entries, place <+: e.1 := by
  rw [at?]
  split
  · next hempty => exact iff_of_true ⟨_, rfl⟩ (.inl (by simpa using hempty))
  · next hne =>
      have hne : place ≠ [] := by simpa using hne
      split
      · next found hlookup =>
          exact iff_of_true ⟨_, rfl⟩ (.inr ⟨_, mem_of_lookup hlookup, List.prefix_refl place⟩)
      · simp [hne]

theorem named_of_at? (h : tree.WellFormed) (hat : tree.at? place = some content) :
    ∀ n ∈ place, Path.IsName n ∧ n ≠ ".." := by
  rcases exists_at?_iff.mp ⟨_, hat⟩ with rfl | ⟨e, he, hbelow⟩
  · simp
  · exact fun n hn => h.named e he n (hbelow.subset hn)

theorem isName_of_at? (h : tree.WellFormed) (hat : tree.at? place = some content) :
    ∀ n ∈ place, Path.IsName n :=
  fun n hn => (named_of_at? h hat n hn).1

theorem isName_of_at?_append (h : tree.WellFormed) (hat : tree.at? (place ++ names) = some content) :
    ∀ n ∈ names, Path.IsName n :=
  fun n hn => isName_of_at? h hat n (List.mem_append_right place hn)

theorem at?_of_below (h : tree.WellFormed) {n : String}
    (hat : tree.at? (place ++ n :: names) = some content) : tree.at? place = some .folder := by
  rcases exists_at?_iff.mp ⟨_, hat⟩ with hnil | ⟨e, he, hbelow⟩
  · simp at hnil
  · have hplace : place <+: e.1 := (List.prefix_append _ _).trans hbelow
    have hne : place ≠ e.1 := by
      rintro rfl
      have hlength := hbelow.length_le
      simp at hlength
    rw [at?]
    split
    · rfl
    · split
      · next found hlookup =>
          exact congrArg some (h.folder _ (mem_of_lookup hlookup) e he hplace hne)
      · have hany : (tree.entries.any fun e => place.isPrefixOf e.1) = true := by
          rw [List.any_eq_true]
          exact ⟨e, he, List.isPrefixOf_iff_prefix.mpr hplace⟩
        rw [if_pos hany]

theorem at?_of_follow (h : tree.follow base pieces = .ok (place, .folder)) :
    tree.at? base = some .folder := by
  cases pieces with
  | nil =>
      rw [follow] at h
      split at h
      · next found hat =>
          cases h
          exact hat
      · cases h
  | cons n pieces =>
      rw [follow] at h
      split at h
      · cases h
      · next hat => exact hat
      · cases h

theorem follow_cons (hat : tree.at? place = some .folder) (n : String) (names : List String) :
    tree.follow place (n :: names) = (tree.step place n).bind (tree.follow · names) := by
  rw [follow, hat]
  cases tree.step place n <;> rfl

theorem follow_append (h : tree.follow base pieces = .ok (place, .folder)) (names : List String) :
    tree.follow base (pieces ++ names) = tree.follow place names := by
  -- No file is met on the way, since the way ends in a folder.
  induction pieces generalizing base with
  | nil =>
      have hat := at?_of_follow h
      rw [follow, hat] at h
      cases h
      rfl
  | cons n pieces ih =>
      have hat := at?_of_follow h
      rw [follow_cons hat] at h
      rw [List.cons_append, follow_cons hat]
      obtain ⟨next, hnext, h⟩ := bind_eq_ok h
      rw [hnext]
      exact ih h

theorem follow_skipped (hbase : tree.at? base = some .folder) (hpieces : ∀ n ∈ pieces, n = "")
    (names : List String) : tree.follow base (pieces ++ names) = tree.follow base names := by
  induction pieces with
  | nil => rfl
  | cons n pieces ih =>
      obtain ⟨rfl, hrest⟩ := List.forall_mem_cons.mp hpieces
      rw [List.cons_append, follow_cons hbase]
      exact ih hrest

inductive Barrier : Fault → Prop
  | denied : Barrier (.file .denied)
  | tooLong : Barrier (.file .tooLong)

theorem step_dot {next : Place} (h : tree.step place "." = .ok next) : next = place := by
  rw [step, if_neg (by decide)] at h
  split at h
  · cases h
  · exact (Except.ok.inj h).symm

theorem step_of_name {n : String} (hn : Path.IsName n) (hup : n ≠ "..") :
    tree.step place n = .ok (place ++ [n]) ∨
      ∃ fault, tree.step place n = .error fault ∧ Barrier fault := by
  rw [step, if_neg hn.ne_empty, if_neg hn.ne_dot, if_neg hup]
  split
  · exact .inr ⟨_, rfl, .denied⟩
  · split
    · exact .inr ⟨_, rfl, .tooLong⟩
    · exact .inl rfl

theorem follow_names (h : tree.WellFormed) (hat : tree.at? (place ++ names) = some content) :
    tree.follow place names = .ok (place ++ names, content) ∨
      ∃ fault, tree.follow place names = .error fault ∧ Barrier fault := by
  induction names generalizing place with
  | nil =>
      rw [List.append_nil] at hat ⊢
      exact .inl (by rw [follow, hat])
  | cons n names ih =>
      obtain ⟨hn, hup⟩ := named_of_at? h hat n (by simp)
      rw [follow_cons (at?_of_below h hat)]
      rcases tree.step_of_name hn hup with hstep | ⟨fault, hstep, hbarrier⟩
      · have hbelow : tree.at? ((place ++ [n]) ++ names) = some content := by simpa using hat
        have hnext := ih hbelow
        rw [hstep]
        rwa [List.append_assoc] at hnext
      · exact .inr ⟨fault, by rw [hstep]; rfl, hbarrier⟩

theorem resolve_toString (hp : p.IsNormal) (hne : p ≠ ⟨"", []⟩)
    (hbase : tree.at? (if p.isAbsolute then [] else current) = some .folder) :
    tree.resolve current p.toString =
      if Path.maxSize < p.toString.utf8ByteSize then .error (.file .tooLong)
      else tree.follow (if p.isAbsolute then [] else current) p.names := by
  obtain ⟨before, hbefore, hpieces⟩ := hp.piecesOf_toString
  have hskipped : ∀ n ∈ before, n = "" := fun n hn =>
    (hbefore n hn).resolve_right fun hdot => hne hdot.2
  have hwritten : p.toString ≠ "" := by
    intro hempty
    have hp' := hp.ofString_toString
    rw [hempty] at hp'
    subst hp'
    exact absurd hempty (by decide)
  rw [resolve, if_neg hwritten, hp.ofString_toString, hpieces, follow_skipped hbase hskipped]

theorem resolve_of_long {s : String} (h : Path.maxSize < s.utf8ByteSize) :
    tree.resolve current s = .error (.file .tooLong) := by
  have hne : s ≠ "" := by
    rintro rfl
    exact absurd h (by decide)
  rw [resolve, if_neg hne, if_pos h]

theorem at?_of_resolve (hp : p.IsNormal)
    (h : tree.resolve current p.toString = .ok (place, .folder)) :
    tree.at? (if p.isAbsolute then [] else current) = some .folder := by
  rw [resolve, hp.ofString_toString] at h
  split at h
  · cases h
  · split at h
    · cases h
    · exact at?_of_follow h

theorem follow_of_resolve (hp : p.IsNormal)
    (h : tree.resolve current p.toString = .ok (place, .folder)) :
    tree.follow (if p.isAbsolute then [] else current) p.names = .ok (place, .folder) := by
  have hbase := at?_of_resolve hp h
  by_cases hne : p = ⟨"", []⟩
  · subst hne
    change tree.at? current = some .folder at hbase
    change tree.follow current ["."] = _ at h
    rw [follow_cons hbase] at h
    obtain ⟨next, hnext, h⟩ := bind_eq_ok h
    rw [step_dot hnext] at h
    exact h
  · rw [resolve_toString hp hne hbase] at h
    split at h
    · cases h
    · exact h

theorem resolve_append (h : tree.WellFormed) (hp : p.IsNormal)
    (hfolder : tree.resolve current p.toString = .ok (place, .folder))
    (hat : tree.at? (place ++ names) = some content) (hne : names ≠ []) :
    tree.resolve current (p.append names).toString = .ok (place ++ names, content) ∨
      ∃ fault, tree.resolve current (p.append names).toString = .error fault ∧ Barrier fault := by
  have hbase := at?_of_resolve hp hfolder
  have hroot : (p.append names).isAbsolute = p.isAbsolute := rfl
  have hnames : p.append names ≠ ⟨"", []⟩ := by
    intro hnil
    exact hne (List.append_eq_nil_iff.mp (congrArg Path.names hnil)).2
  rw [resolve_toString (hp.append (isName_of_at?_append h hat)) hnames (by rwa [hroot]), hroot,
    Path.append, follow_append (follow_of_resolve hp hfolder)]
  split
  · exact .inr ⟨_, rfl, .tooLong⟩
  · exact follow_names h hat

theorem find_of_ok {s : String} {found : Place × Content} (h : tree.resolve current s = .ok found) :
    tree.find current s = .ok (some found) := by
  rw [find, h]

theorem find_of_barrier {s : String} {fault : Fault} (h : tree.resolve current s = .error fault)
    (hbarrier : Barrier fault) : tree.find current s = .error fault := by
  rw [find, h]
  cases hbarrier <;> rfl

theorem mem_prefixes_iff {all : Place} :
    names ∈ (List.range all.length).map (fun n => all.take (n + 1)) ↔ names ≠ [] ∧ names <+: all := by
  rw [List.mem_map]
  constructor
  · rintro ⟨n, hn, rfl⟩
    have hn := List.mem_range.mp hn
    refine ⟨?_, List.take_prefix _ _⟩
    apply List.ne_nil_of_length_pos
    rw [List.length_take]
    omega
  · rintro ⟨hne, hprefix⟩
    have hpos := List.length_pos_iff.mpr hne
    have hle := hprefix.length_le
    refine ⟨names.length - 1, List.mem_range.mpr (by omega), ?_⟩
    rw [Nat.sub_add_cancel hpos]
    exact (List.prefix_iff_eq_take.mp hprefix).symm

theorem mem_below : names ∈ tree.below place ↔ names ∈ tree.namesBelow place := by
  rw [below, List.mem_mergeSort, List.mem_eraseDups]

theorem mem_namesBelow_iff : names ∈ tree.namesBelow place ↔
    names ≠ [] ∧ ∃ content, tree.at? (place ++ names) = some content := by
  rw [namesBelow, List.mem_flatMap, exists_at?_iff]
  constructor
  · rintro ⟨all, hall, hnames⟩
    obtain ⟨e, he, rfl⟩ := List.mem_map.mp hall
    obtain ⟨he, hplace⟩ := List.mem_filter.mp he
    obtain ⟨hne, hprefix⟩ := mem_prefixes_iff.mp hnames
    obtain ⟨rest, hrest⟩ := List.isPrefixOf_iff_prefix.mp hplace
    rw [← hrest, List.drop_left] at hprefix
    refine ⟨hne, .inr ⟨e, he, ?_⟩⟩
    rw [← hrest]
    exact (List.prefix_append_right_inj place).mpr hprefix
  · rintro ⟨hne, hnil | ⟨e, he, hprefix⟩⟩
    · exact absurd (List.append_eq_nil_iff.mp hnil).2 hne
    · obtain ⟨rest, hrest⟩ := hprefix
      have hplace : place <+: e.1 := ⟨names ++ rest, by rw [← hrest, List.append_assoc]⟩
      refine ⟨e.1.drop place.length, List.mem_map.mpr ⟨e, ?_, rfl⟩, mem_prefixes_iff.mpr ⟨hne, ?_⟩⟩
      · exact List.mem_filter.mpr ⟨he, List.isPrefixOf_iff_prefix.mpr hplace⟩
      · rw [← hrest, List.append_assoc, List.drop_left]
        exact List.prefix_append _ _

theorem nodup_below (tree : FileTree) (place : Place) : (tree.below place).Nodup :=
  (List.mergeSort_perm _ _).nodup_iff.mpr (nodup_eraseDups _)

theorem pairwise_below (tree : FileTree) (place : Place) :
    (tree.below place).Pairwise (List.Lex (· < ·)) := by
  have hsorted : (tree.below place).Pairwise fun a b => Path.namesLe a b = true :=
    @List.pairwise_mergeSort Place Path.namesLe (fun _ _ _ => Path.namesLe_trans) Path.namesLe_total _
  refine (hsorted.and (nodup_below tree place)).imp fun hab => ?_
  exact (Path.namesLe_iff.mp hab.1).resolve_left hab.2

theorem mem_listed_iff : names ∈ tree.listed place ↔
    (names ≠ [] ∧ ∃ content, tree.at? (place ++ names) = some content) ∧
      tree.lists place names = true := by
  rw [listed, List.mem_filter, mem_below, mem_namesBelow_iff]

theorem pairwise_listed (tree : FileTree) (place : Place) :
    (tree.listed place).Pairwise (List.Lex (· < ·)) :=
  (pairwise_below tree place).filter _

end FileTree

end Chunkwise
