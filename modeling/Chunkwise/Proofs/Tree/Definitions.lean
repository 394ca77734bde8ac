import Chunkwise.Proofs.Tree.Boundaries
import Chunkwise.Tree.Outline
import Mathlib.Data.List.Perm.Basic

namespace Chunkwise

def Boundary.nameIn? (kinds : List Kind) (b : Boundary) : Option String :=
  if kinds.contains b.kind then b.name.filter (· ≠ "") else none

structure Mention where
  name : String
  first : Nat
  last : Nat

def Outline.Function.mention (f : Outline.Function) : Mention :=
  ⟨f.name, f.first, f.last⟩

def Outline.ClassLike.mention (c : Outline.ClassLike) : Mention :=
  ⟨c.name, c.first, c.last⟩

namespace Node

variable {n d : Node} {kind : Kind} {source : ByteArray}

def defined (n : Node) : Node :=
  if n.isDecorated then n.definition?.getD n else n

theorem defined_of_plain (h : n.isDecorated = false) : n.defined = n := by
  rw [defined, h, if_neg Bool.false_ne_true]

theorem defined_of_wrapper (h : n.isDecorated = true) (hd : n.definition? = some d) : n.defined = d := by
  rw [defined, if_pos h, hd, Option.getD_some]

def isDefinition (n : Node) : Bool :=
  (kindOfType n.type).isSome

theorem isDefinition_of_decorated (h : n.isDecorated = true) : n.isDefinition = false := by
  rw [isDefinition, kindOfType_of_decorated h]
  rfl

theorem kindOfType_defined (h : n.kind? = some kind) : kindOfType n.defined.type = some kind := by
  rw [kind?] at h
  cases hdecorated : n.isDecorated with
  | false => rw [defined_of_plain hdecorated, ← h, hdecorated, if_neg Bool.false_ne_true]
  | true =>
    rw [if_pos hdecorated] at h
    obtain ⟨d, hd, hkind⟩ := Option.bind_eq_some_iff.mp h
    rwa [defined_of_wrapper hdecorated hd]

theorem plain_of_isDefinition (h : n.isDefinition = true) : n.isDecorated = false := by
  cases hdecorated : n.isDecorated with
  | false => rfl
  | true =>
    rw [isDefinition_of_decorated hdecorated] at h
    exact absurd h Bool.false_ne_true

theorem name?_defined (h : n.kind? = some kind) (source : ByteArray) :
    n.defined.name? source = n.name? source := by
  have hkind := kindOfType_defined h
  have hplain : n.defined.isDecorated = false := plain_of_isDefinition (by rw [isDefinition, hkind]; rfl)
  cases hdecorated : n.isDecorated with
  | false => rw [defined_of_plain hdecorated]
  | true =>
    rw [kind?, if_pos hdecorated] at h
    obtain ⟨d, hd, -⟩ := Option.bind_eq_some_iff.mp h
    rw [defined_of_wrapper hdecorated hd] at hplain ⊢
    rw [name?, name?, hplain, if_neg Bool.false_ne_true, if_pos hdecorated, hd]

theorem preorderAll_eq_flatMap (ns : List Node) : preorderAll ns = ns.flatMap preorder := by
  induction ns with
  | nil => rfl
  | cons n ns ih => rw [preorderAll, ih, List.flatMap_cons]

theorem preorderAll_eraseP (hd : n.definition? = some d) :
    (preorderAll n.children).Perm (d.preorder ++ preorderAll (n.children.eraseP (isField "definition"))) := by
  obtain ⟨hfield, above, below, hchildren, habove⟩ := List.find?_eq_some_iff_append.mp hd
  rw [hchildren, List.eraseP_append_right _ (by simpa using habove), List.eraseP_cons_of_pos hfield,
    preorderAll_eq_flatMap, preorderAll_eq_flatMap, ← List.flatMap_cons]
  exact List.perm_middle.flatMap_right preorder

theorem definitions_of_node (n : Node) :
    n.preorder.filter isDefinition =
      (if n.isDefinition then [n] else []) ++ (preorderAll n.children).filter isDefinition := by
  rw [preorder_eq, List.filter_cons]
  split
  · rfl
  · rfl

theorem definitions_perm (n : Node) :
    ((n.kind?.map fun _ => n.defined).toList ++ (preorderAll n.regionChildren).filter isDefinition).Perm
      (n.preorder.filter isDefinition) := by
  cases hdecorated : n.isDecorated with
  | false =>
    have hkind : n.kind? = kindOfType n.type := by rw [kind?, hdecorated, if_neg Bool.false_ne_true]
    have hchildren : n.regionChildren = n.children := by
      rw [regionChildren, hdecorated, Bool.false_and, if_neg Bool.false_ne_true]
    rw [definitions_of_node, isDefinition, hkind, hchildren, defined_of_plain hdecorated]
    cases kindOfType n.type with
    | none => exact .refl _
    | some kind => exact .refl _
  | true =>
    rw [definitions_of_node, isDefinition_of_decorated hdecorated]
    cases hkind : n.kind? with
    | none =>
      have hchildren : n.regionChildren = n.children := by
        rw [regionChildren, hkind, Option.isSome_none, Bool.and_false, if_neg Bool.false_ne_true]
      rw [hchildren]
      exact .refl _
    | some kind =>
      rw [kind?, if_pos hdecorated] at hkind
      obtain ⟨d, hd, hkind⟩ := Option.bind_eq_some_iff.mp hkind
      have hdefinition : d.isDefinition = true := by
        rw [isDefinition, hkind]
        rfl
      have hchildren : n.regionChildren = n.children.eraseP (isField "definition") ++ d.children := by
        simp [regionChildren, kind?, hdecorated, hd, hkind]
      have hbelow := (preorderAll_eraseP hd).filter isDefinition
      rw [List.filter_append, definitions_of_node, if_pos hdefinition] at hbelow
      rw [hchildren, preorderAll_append, List.filter_append, defined_of_wrapper hdecorated hd]
      refine .trans ?_ hbelow.symm
      rw [List.append_assoc]
      exact (List.perm_append_comm).append_left [d]

theorem defined_regions_perm (n : Node) (enclosing : Option Kind) :
    ((Visit.regions ⟨n, false, enclosing⟩).map fun r => r.node.defined).Perm
      (n.preorder.filter isDefinition) := by
  rw [Visit.regions_below, List.map_append]
  refine .trans ?_ (definitions_perm n)
  apply List.Perm.append
  · cases n.kind? with
    | none => exact .refl _
    | some kind => exact .refl _
  · rw [List.map_flatMap, preorderAll_eq_flatMap, List.filter_flatMap]
    apply List.Perm.flatMap_left
    intro c hc
    exact defined_regions_perm c (n.kind?.or enclosing)
termination_by sizeOf n
decreasing_by
  have := List.sizeOf_lt_of_mem hc
  have := n.sizeOf_regionChildren
  omega

theorem regions_eq_visit (root : Node) : root.regions = Visit.regions ⟨root, false, none⟩ := by
  rw [regions_eq_reports]
  rfl

theorem filterMap_regions_perm {β : Type} {f : Node → Option β} (hf : ∀ n, n.isDefinition = false → f n = none)
    (root : Node) : (root.regions.filterMap fun r => f r.node.defined).Perm (root.preorder.filterMap f) := by
  have hperm := (defined_regions_perm root none).filterMap f
  have hfilter : (fun n => if n.isDefinition = true then f n else none) = f := by
    funext n
    cases hn : n.isDefinition with
    | false => rw [hf n hn, ite_self]
    | true => exact if_pos rfl
  rwa [← regions_eq_visit, List.filterMap_map, List.filterMap_filter, hfilter] at hperm

theorem kind?_of_mem_regions {root : Node} {r : Region} (h : r ∈ root.regions) : r.node.kind? = some r.kind := by
  rw [regions_eq_reports, List.mem_map] at h
  obtain ⟨report, hreport, rfl⟩ := h
  obtain ⟨v, kind, -, hkind, hregion⟩ := Visit.mem_reports_iff.mp hreport
  rw [hregion]
  rw [Visit.kind?] at hkind
  cases hwrapped : v.wrapped with
  | false => simpa [hwrapped] using hkind
  | true => simp [hwrapped] at hkind

def nameIn? (kinds : List Kind) (source : ByteArray) (n : Node) : Option String :=
  if (kindOfType n.type).any kinds.contains then
    ((n.name? source).map String.ofList).filter (· ≠ "")
  else none

theorem nameIn?_of_not_isDefinition (kinds : List Kind) (source : ByteArray) (h : n.isDefinition = false) :
    n.nameIn? kinds source = none := by
  rw [isDefinition, Option.isSome_eq_false_iff, Option.isNone_iff_eq_none] at h
  rw [nameIn?, h]
  rfl

def mention? (kinds : List Kind) (source : ByteArray) (n : Node) : Option Mention :=
  (n.nameIn? kinds source).map fun name => ⟨name, n.firstLine, n.lastLine⟩

theorem mention?_of_not_isDefinition (kinds : List Kind) (source : ByteArray) (h : n.isDefinition = false) :
    n.mention? kinds source = none := by
  rw [mention?, nameIn?_of_not_isDefinition kinds source h, Option.map_none]

theorem nameIn?_boundary {root : Node} {r : Region} (hr : r ∈ root.regions) {kinds : List Kind}
    (hmethod : kinds.contains .method = kinds.contains .function) (source : ByteArray) :
    (r.boundary source).nameIn? kinds = r.node.defined.nameIn? kinds source := by
  have hkind := kind?_of_mem_regions hr
  have hcontains : kinds.contains (r.boundary source).kind = kinds.contains r.kind := by
    rw [Region.boundary]
    split
    · rename_i h
      rw [hmethod, of_decide_eq_true (Bool.and_eq_true_iff.mp h).1]
    · rfl
  rw [Boundary.nameIn?, hcontains, nameIn?, kindOfType_defined hkind, name?_defined hkind]
  rfl

def Entry.mention? (kinds : List Kind) : Entry → Option Mention
  | .function f => if kinds.contains .function then some f.mention else none
  | .classLike c => if kinds.contains .classLike then some c.mention else none
  | _ => none

theorem filter_ofList (name : Option Text) : (name.map String.ofList).filter (· ≠ "") =
    match name with
    | none | some [] => none
    | some t => some (String.ofList t) := by
  cases name with
  | none => rfl
  | some t => cases t with
    | nil => rfl
    | cons c t =>
      have : String.ofList (c :: t) ≠ "" := fun h => by simpa using congrArg String.toList h
      exact if_pos (decide_eq_true this)

def outlined : List Kind :=
  [.function, .method, .classLike]

theorem mention?_entryOf_of_other (h : n.isDecorated = true ∨ ∀ kind ∈ outlined, n.kind? ≠ some kind)
    (kinds : List Kind) (source : ByteArray) : (n.entryOf source).bind (Entry.mention? kinds) = none := by
  have hdecorated (kind : Kind) (hmem : kind ∈ outlined) (hkind : n.kind? = some kind) : n.isDecorated = true :=
    h.resolve_right fun hother => hother kind hmem hkind
  rw [entryOf]
  split
  · rw [if_pos (hdecorated .function (by decide) ‹_›)]
    rfl
  · rw [if_pos (hdecorated .method (by decide) ‹_›)]
    rfl
  · rw [if_pos (hdecorated .classLike (by decide) ‹_›)]
    rfl
  · split
    · split
      · rfl
      · rfl
    · split
      · cases n.exported source with
        | none => rfl
        | some e => rfl
      · rfl

theorem mention?_entry {kinds : List Kind} {entry : Text → Entry} {first last : Nat}
    (h : ∀ t, (entry t).mention? kinds =
      if kinds.contains kind then some ⟨String.ofList t, first, last⟩ else none) (name : Option Text) :
    Option.bind (match name with
      | none | some [] => none
      | some t => some (entry t)) (Entry.mention? kinds) =
    (if kinds.contains kind then (name.map String.ofList).filter (· ≠ "") else none).map
      fun name => ⟨name, first, last⟩ := by
  rw [filter_ofList]
  split
  · rw [ite_self, Option.map_none, Option.bind_none]
  · rw [ite_self, Option.map_none, Option.bind_none]
  · rw [Option.bind_some, h]
    split
    · rfl
    · rfl

theorem mention?_entryOf {kinds : List Kind} (hmethod : kinds.contains .method = kinds.contains .function)
    (hkinds : kinds ⊆ outlined) (n : Node) (source : ByteArray) :
    (n.entryOf source).bind (Entry.mention? kinds) = n.mention? kinds source := by
  cases hdecorated : n.isDecorated with
  | true =>
    rw [mention?_entryOf_of_other (.inl hdecorated),
      mention?_of_not_isDefinition kinds source (isDefinition_of_decorated hdecorated)]
  | false =>
    have hkind : n.kind? = kindOfType n.type := by rw [kind?, hdecorated, if_neg Bool.false_ne_true]
    rw [mention?, nameIn?, ← hkind]
    cases hn : n.kind? with
    | none =>
      rw [mention?_entryOf_of_other (.inr (by simp [hn]))]
      rfl
    | some kind =>
      rw [Option.any_some]
      by_cases hmem : kind ∈ outlined
      · rw [entryOf, hn]
        obtain rfl | rfl | rfl : kind = .function ∨ kind = .method ∨ kind = .classLike := by
          simpa [outlined] using hmem
        · rw [if_neg (Bool.eq_false_iff.mp hdecorated)]
          exact mention?_entry (fun t => rfl) _
        · rw [hmethod, if_neg (Bool.eq_false_iff.mp hdecorated)]
          exact mention?_entry (fun t => rfl) _
        · simp only [hdecorated, Bool.false_eq_true, if_false]
          exact mention?_entry (fun t => rfl) _
      · have hother : ∀ k ∈ outlined, n.kind? ≠ some k := by
          rintro k hk heq
          obtain rfl : kind = k := Option.some.inj (hn.symm.trans heq)
          exact hmem hk
        rw [mention?_entryOf_of_other (.inr hother), if_neg fun h => hmem (hkinds (List.contains_iff_mem.mp h)),
          Option.map_none]

theorem map_mention_walk {β : Type} {kinds : List Kind} {part : Entry → Option β} {mention : β → Mention}
    (hpart : ∀ e, (part e).map mention = e.mention? kinds)
    (hmethod : kinds.contains .method = kinds.contains .function) (hkinds : kinds ⊆ outlined) (root : Node)
    (source : ByteArray) : ((root.walk.filterMap (·.entryOf source)).filterMap part).map mention =
      root.preorder.filterMap (mention? kinds source) := by
  rw [walk_eq_preorder, List.filterMap_filterMap, List.map_filterMap]
  congr 1
  funext n
  rw [← mention?_entryOf hmethod hkinds, Option.map_bind]
  congr 1
  funext e
  exact hpart e

theorem functions_outline (root : Node) (source : ByteArray) :
    (root.outline source).functions.map (·.mention) =
      root.preorder.filterMap (mention? [.function, .method] source) := by
  refine map_mention_walk (fun e => ?_) rfl (by decide) root source
  cases e with
  | function f => rfl
  | _ => rfl

theorem classes_outline (root : Node) (source : ByteArray) :
    (root.outline source).classes.map (·.mention) =
      root.preorder.filterMap (mention? [.classLike] source) := by
  refine map_mention_walk (fun e => ?_) rfl (by decide) root source
  cases e with
  | classLike c => rfl
  | _ => rfl

structure Region.ToldBy (source : ByteArray) (r : Region) (m : Mention) : Prop where
  name : (r.boundary source).name = some m.name
  defined : m.first = r.node.defined.firstLine ∧ m.last = r.node.defined.lastLine
  lines : r.node.isDecorated = false → (r.boundary source).first = m.first ∧ (r.boundary source).last = m.last

structure SameStory (root : Node) (source : ByteArray) (kinds : List Kind) (bs : List Boundary)
    (mentions : List Mention) : Prop where
  names : (bs.filterMap (·.nameIn? kinds)).Perm (mentions.map (·.name))
  regions : bs = root.regions.map (Region.boundary source)
  told : ∃ pairs : List (Region × Mention),
    pairs.map (·.1) = root.regions.filter (fun r => ((r.boundary source).nameIn? kinds).isSome) ∧
      (pairs.map (·.2)).Perm mentions ∧ ∀ pair ∈ pairs, Region.ToldBy source pair.1 pair.2

theorem toldBy_of_mention? {root : Node} {r : Region} (hr : r ∈ root.regions) {kinds : List Kind}
    (hmethod : kinds.contains .method = kinds.contains .function) {source : ByteArray} {m : Mention}
    (hm : r.node.defined.mention? kinds source = some m) : r.ToldBy source m := by
  obtain ⟨name, hname, rfl⟩ := Option.map_eq_some_iff.mp hm
  rw [← nameIn?_boundary hr hmethod, Boundary.nameIn?] at hname
  constructor
  · split at hname
    · exact (Option.filter_eq_some_iff.mp hname).1
    · cases hname
  · exact ⟨rfl, rfl⟩
  · intro hdecorated
    rw [defined_of_plain hdecorated]
    exact ⟨rfl, rfl⟩

theorem names_perm (root : Node) (source : ByteArray) {kinds : List Kind}
    (hmethod : kinds.contains .method = kinds.contains .function) :
    ((root.boundaries source).filterMap (·.nameIn? kinds)).Perm
      (root.preorder.filterMap (nameIn? kinds source)) := by
  have hnames : (root.boundaries source).filterMap (·.nameIn? kinds) =
      root.regions.filterMap fun r => r.node.defined.nameIn? kinds source := by
    rw [boundaries, List.filterMap_map]
    exact List.filterMap_congr fun r hr => nameIn?_boundary hr hmethod source
  rw [hnames]
  exact filterMap_regions_perm (fun n => nameIn?_of_not_isDefinition kinds source) root

theorem map_name_mentions (kinds : List Kind) (source : ByteArray) (ns : List Node) :
    (ns.filterMap (mention? kinds source)).map (·.name) = ns.filterMap (nameIn? kinds source) := by
  rw [List.map_filterMap]
  congr 1
  funext n
  rw [mention?, Option.map_map]
  exact congrFun Option.map_id _

theorem exists_pairs (root : Node) (source : ByteArray) {kinds : List Kind}
    (hmethod : kinds.contains .method = kinds.contains .function) : ∃ pairs : List (Region × Mention),
      pairs.map (·.1) = root.regions.filter (fun r => ((r.boundary source).nameIn? kinds).isSome) ∧
        (pairs.map (·.2)).Perm (root.preorder.filterMap (mention? kinds source)) ∧
        ∀ pair ∈ pairs, Region.ToldBy source pair.1 pair.2 := by
  refine ⟨root.regions.filterMap fun r => (r.node.defined.mention? kinds source).map (r, ·), ?_, ?_, ?_⟩
  · rw [List.map_filterMap, ← List.filterMap_eq_filter]
    refine List.filterMap_congr fun r hr => ?_
    rw [Option.guard, nameIn?_boundary hr hmethod, mention?]
    cases r.node.defined.nameIn? kinds source with
    | none => rfl
    | some name => rfl
  · rw [List.map_filterMap]
    refine .trans (.of_eq ?_) (filterMap_regions_perm (fun n => mention?_of_not_isDefinition kinds source) root)
    congr 1
    funext r
    rw [Option.map_map]
    exact congrFun Option.map_id _
  · rintro ⟨r, m⟩ h
    obtain ⟨r', hr, h⟩ := List.mem_filterMap.mp h
    obtain ⟨m', hm, heq⟩ := Option.map_eq_some_iff.mp h
    cases heq
    exact toldBy_of_mention? hr hmethod hm

theorem boundaries_sameStory (root : Node) (source : ByteArray) {kinds : List Kind}
    (hmethod : kinds.contains .method = kinds.contains .function) :
    SameStory root source kinds (root.boundaries source) (root.preorder.filterMap (mention? kinds source)) where
  names := by
    rw [map_name_mentions]
    exact names_perm root source hmethod
  regions := rfl
  told := exists_pairs root source hmethod

def alarmText : Text :=
  "@d\ndef f(): 0\nclass C: 0\n".toList

def alarm : Node :=
  ⟨"module", 0, 25, 0, 3, none,
    [⟨"decorated_definition", 0, 13, 0, 1, none,
      [⟨"decorator", 0, 2, 0, 0, none, []⟩,
        ⟨"function_definition", 3, 13, 1, 1, some "definition",
          [⟨"identifier", 7, 8, 1, 1, some "name", []⟩]⟩]⟩,
      ⟨"class_definition", 14, 24, 2, 2, none,
        [⟨"identifier", 20, 21, 2, 2, some "name", []⟩]⟩]⟩

end Node

namespace Grammar

open Node

theorem LazyParser.boundaries_and_outline_agree {c : Catalogue} {cache : Cache} {p : LazyParser}
    {parse : Text → Option Node} {t : Text} {root : Node}
    (hp : (p.ensure c cache).1.backend = some (.ok parse)) (hroot : parse t = some root) :
    SameStory root (Utf8.encode t) [.function, .method] ((p.ensure c cache).1.boundaries t)
        (((p.ensure c cache).1.outline t).functions.map (·.mention)) ∧
      SameStory root (Utf8.encode t) [.classLike] ((p.ensure c cache).1.boundaries t)
        (((p.ensure c cache).1.outline t).classes.map (·.mention)) := by
  have hboundaries : (p.ensure c cache).1.boundaries t = root.boundaries (Utf8.encode t) := by
    simp only [boundaries, tree?, hp, hroot]
  have houtline : (p.ensure c cache).1.outline t = root.outline (Utf8.encode t) := by
    simp only [outline, tree?, hp, hroot]
  rw [hboundaries, houtline, functions_outline, classes_outline]
  exact ⟨boundaries_sameStory root _ rfl, boundaries_sameStory root _ rfl⟩

def alarms : Catalogue where
  bindings := [("python", ⟨"tree_sitter_python", "language"⟩)]
  modules := [("tree_sitter_python", [("language", .ok ⟨.ok fun _ => some alarm⟩)])]

theorem LazyParser.boundaries_and_outline_agree_alarm :
    let p := (ensure alarms {} { language := "python" }).1
    p.backend = some (.ok fun _ => some alarm) ∧
      (p.boundaries alarmText).map (fun b => (b.first, b.name)) = [(1, some "f"), (3, some "C")] ∧
      SameStory alarm (Utf8.encode alarmText) [.function, .method] (p.boundaries alarmText)
        ((p.outline alarmText).functions.map (·.mention)) ∧
      SameStory alarm (Utf8.encode alarmText) [.classLike] (p.boundaries alarmText)
        ((p.outline alarmText).classes.map (·.mention)) := by
  have hp : (ensure alarms {} { language := "python" }).1.backend = some (.ok fun _ => some alarm) := rfl
  exact ⟨hp, by decide +kernel, boundaries_and_outline_agree hp rfl⟩

end Grammar

end Chunkwise
