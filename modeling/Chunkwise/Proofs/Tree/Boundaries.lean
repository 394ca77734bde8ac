import Chunkwise.Proofs.Tree.Visit
import Chunkwise.Tree.Grammar

namespace Chunkwise

namespace Node

variable {root n d : Node} {p q above : Address} {i : Nat} {kind : Kind}

def Wrapped (root : Node) (p : Address) : Prop :=
  ∃ above i w d, p = above ++ [i] ∧ root.at? above = some w ∧ w.wraps i = true ∧
    w.children[i]? = some d ∧ (kindOfType d.type).isSome = true

inductive Defines (root : Node) (p : Address) : Node → Kind → Prop
  | itself {n : Node} {kind : Kind} (hn : root.at? p = some n)
      (hkind : kindOfType n.type = some kind) (hwrapped : ¬ Wrapped root p) : Defines root p n kind
  | wrapper {n d : Node} {kind : Kind} (hn : root.at? p = some n)
      (hdecorated : n.isDecorated = true) (hd : n.definition? = some d)
      (hkind : kindOfType d.type = some kind) : Defines root p d kind

structure Surrounds (root : Node) (above p : Address) (kind : Kind) : Prop where
  above_prefix : above <+: p
  ne : above ≠ p
  defines : ∃ d, Defines root above d kind
  last : ∀ other d k, other <+: p → other ≠ p → Defines root other d k → other <+: above

def Before (root : Node) (p q : Address) : Prop :=
  p <+: q ∧ p ≠ q ∨
    ∃ above i j, above ++ [i] <+: p ∧ above ++ [j] <+: q ∧ i ≠ j ∧
      (Wrapped root (above ++ [j]) ∨ ¬ Wrapped root (above ++ [i]) ∧ i < j)

theorem Before.ne (h : Before root p q) : p ≠ q := by
  rintro rfl
  rcases h with ⟨_, hne⟩ | ⟨above, i, j, hi, hj, hij, _⟩
  · exact hne rfl
  · have heq := (List.prefix_of_prefix_length_le hi hj (by simp)).eq_of_length (by simp)
    exact hij (by simpa using heq)

theorem at?_concat (root : Node) (above : Address) (i : Nat) :
    root.at? (above ++ [i]) = (root.at? above).bind (·.children[i]?) := by
  simp only [at?, List.foldlM_append, List.foldlM_cons, List.foldlM_nil, bind_pure]
  rfl

theorem kindOfType_of_decorated (h : n.isDecorated = true) : kindOfType n.type = none := by
  rw [beq_iff_eq.mp h]
  decide

theorem definition?_of_wraps (h : n.wraps i = true) (hd : n.children[i]? = some d) :
    n.isDecorated = true ∧ n.definition? = some d := by
  obtain ⟨hdecorated, hindex⟩ := Bool.and_eq_true_iff.mp h
  refine ⟨hdecorated, ?_⟩
  rw [definition?, child?, List.find?_eq_bind_findIdx?_getElem?, beq_iff_eq.mp hindex]
  simpa using hd

theorem wrapped_concat_iff (hn : root.at? above = some n) (hd : n.children[i]? = some d) :
    Wrapped root (above ++ [i]) ↔ n.wraps i = true ∧ (kindOfType d.type).isSome = true := by
  constructor
  · rintro ⟨above', i', w, d', heq, hw, hwraps, hd', hkind⟩
    obtain ⟨rfl, heq⟩ := List.append_inj' heq rfl
    obtain rfl : i = i' := by simpa using heq
    obtain rfl : n = w := by simpa [hn] using hw
    obtain rfl : d = d' := by simpa [hd] using hd'
    exact ⟨hwraps, hkind⟩
  · rintro ⟨hwraps, hkind⟩
    exact ⟨above, i, n, d, rfl, hn, hwraps, hd, hkind⟩

theorem Wrapped.kindOfType (h : Wrapped root p) (hn : root.at? p = some n) :
    (kindOfType n.type).isSome = true := by
  obtain ⟨above, i, w, d, rfl, hw, _, hd, hkind⟩ := h
  obtain rfl : d = n := by simpa [at?_concat, hw, hd] using hn
  exact hkind

theorem defines_iff (hn : root.at? p = some n) :
    (∃ d, Defines root p d kind) ↔ n.kind? = some kind ∧ ¬ Wrapped root p := by
  constructor
  · rintro ⟨d, h⟩
    cases h with
    | itself hn' hkind hwrapped =>
        obtain rfl : n = d := by simpa [hn] using hn'
        have hplain : n.isDecorated = false := by
          cases hdecorated : n.isDecorated with
          | false => rfl
          | true => simp [kindOfType_of_decorated hdecorated] at hkind
        exact ⟨by rw [kind?, hplain, if_neg Bool.false_ne_true, hkind], hwrapped⟩
    | @wrapper n' _ _ hn' hdecorated hd hkind =>
        obtain rfl : n = n' := by simpa [hn] using hn'
        refine ⟨by rw [kind?, if_pos hdecorated, hd, Option.bind_some, hkind], fun hwrapped => ?_⟩
        have := hwrapped.kindOfType hn
        simp [kindOfType_of_decorated hdecorated] at this
  · rintro ⟨hkind, hwrapped⟩
    by_cases hdecorated : n.isDecorated = true
    · rw [kind?, if_pos hdecorated] at hkind
      obtain ⟨d, hd, hkind⟩ := Option.bind_eq_some_iff.mp hkind
      exact ⟨d, .wrapper hn hdecorated hd hkind⟩
    · rw [kind?, if_neg hdecorated] at hkind
      exact ⟨n, .itself hn hkind hwrapped⟩

theorem proper_prefix_concat_iff : q <+: p ++ [i] ∧ q ≠ p ++ [i] ↔ q <+: p := by
  rw [List.prefix_concat_iff]
  constructor
  · rintro ⟨rfl | h, hne⟩
    · exact absurd rfl hne
    · exact h
  · intro h
    refine ⟨.inr h, fun heq => ?_⟩
    have := h.length_le
    rw [heq, List.length_append, List.length_singleton] at this
    omega

theorem surrounds_concat_of_defines (h : Defines root p d kind) {k : Kind} :
    Surrounds root above (p ++ [i]) k ↔ above = p ∧ ∃ d, Defines root p d k := by
  constructor
  · intro hs
    have habove := proper_prefix_concat_iff.mp ⟨hs.above_prefix, hs.ne⟩
    obtain ⟨hp, hne⟩ := proper_prefix_concat_iff.mpr (List.prefix_refl p)
    obtain rfl := habove.eq_of_length_le (hs.last p d kind hp hne h).length_le
    exact ⟨rfl, hs.defines⟩
  · rintro ⟨rfl, hdefines⟩
    obtain ⟨habove, hne⟩ := proper_prefix_concat_iff.mpr (List.prefix_refl above)
    exact ⟨habove, hne, hdefines, fun other _ _ hother hne _ =>
      proper_prefix_concat_iff.mp ⟨hother, hne⟩⟩

theorem surrounds_concat_of_not_defines (h : ∀ d k, ¬ Defines root p d k) :
    Surrounds root above (p ++ [i]) kind ↔ Surrounds root above p kind := by
  constructor
  · intro hs
    have habove := proper_prefix_concat_iff.mp ⟨hs.above_prefix, hs.ne⟩
    refine ⟨habove, ?_, hs.defines, fun other d k hother _ hd => ?_⟩
    · rintro rfl
      obtain ⟨d, hd⟩ := hs.defines
      exact h d kind hd
    · obtain ⟨hother, hne⟩ := proper_prefix_concat_iff.mpr hother
      exact hs.last other d k hother hne hd
  · intro hs
    obtain ⟨habove, hne⟩ := proper_prefix_concat_iff.mpr hs.above_prefix
    refine ⟨habove, hne, hs.defines, fun other d k hother hne hd => ?_⟩
    refine hs.last other d k (proper_prefix_concat_iff.mp ⟨hother, hne⟩) ?_ hd
    rintro rfl
    exact h d k hd

namespace Visit

variable {v u : Visit}

def at? (v : Visit) (p : Address) : Option Visit :=
  p.foldlM child? v

theorem at?_concat (v : Visit) (p : Address) (i : Nat) :
    v.at? (p ++ [i]) = (v.at? p).bind (·.child? i) := by
  simp only [at?, List.foldlM_append, List.foldlM_cons, List.foldlM_nil, bind_pure]
  rfl

structure Seen (root : Node) (p : Address) (v : Visit) : Prop where
  node : root.at? p = some v.node
  wrapped : v.wrapped = true ↔ Wrapped root p
  enclosing : ∀ kind, v.enclosing = some kind ↔ ∃ above, Surrounds root above p kind

theorem seen_ofRoot (root : Node) : Seen root [] (ofRoot root) where
  node := rfl
  wrapped := by simp [ofRoot, Wrapped]
  enclosing kind := by
    refine iff_of_false nofun ?_
    rintro ⟨above, hs⟩
    exact hs.ne (List.prefix_nil.mp hs.above_prefix)

namespace Seen

variable (h : Seen root p v)

include h

theorem kind?_iff : v.kind? = some kind ↔ ∃ d, Defines root p d kind := by
  rw [defines_iff h.node, ← h.wrapped, Visit.kind?]
  cases v.wrapped with
  | false => simp
  | true => simp

theorem child_wrapped (hu : v.child? i = some u) :
    u.wrapped = true ↔ Wrapped root (p ++ [i]) := by
  obtain ⟨d, hd, rfl⟩ := Option.map_eq_some_iff.mp hu
  rw [wrapped_concat_iff h.node hd, toChild, Bool.and_eq_true_iff, and_comm, and_congr_right_iff]
  intro hwraps
  obtain ⟨hdecorated, hdefinition⟩ := definition?_of_wraps hwraps hd
  have hplain : v.wrapped = false := by
    rw [← Bool.not_eq_true, h.wrapped]
    intro hwrapped
    have := hwrapped.kindOfType h.node
    simp [kindOfType_of_decorated hdecorated] at this
  rw [Visit.kind?, hplain, if_neg Bool.false_ne_true, Node.kind?, if_pos hdecorated, hdefinition,
    Option.bind_some]

theorem child_enclosing (hu : v.child? i = some u) :
    u.enclosing = some kind ↔ ∃ above, Surrounds root above (p ++ [i]) kind := by
  obtain ⟨d, _, rfl⟩ := Option.map_eq_some_iff.mp hu
  rw [toChild]
  cases hkind : v.kind? with
  | none =>
      have hnone : ∀ d k, ¬ Defines root p d k := by
        intro d k hd
        simp [h.kind?_iff.mpr ⟨d, hd⟩] at hkind
      simp only [Option.none_or, h.enclosing, surrounds_concat_of_not_defines hnone]
  | some k =>
      obtain ⟨d, hd⟩ := h.kind?_iff.mp hkind
      simp only [Option.some_or, surrounds_concat_of_defines hd, exists_eq_left, ← h.kind?_iff, hkind]

theorem child (hu : v.child? i = some u) : Seen root (p ++ [i]) u where
  node := by
    obtain ⟨d, hd, rfl⟩ := Option.map_eq_some_iff.mp hu
    rw [Node.at?_concat, h.node]
    exact hd
  wrapped := h.child_wrapped hu
  enclosing _ := h.child_enclosing hu

end Seen

theorem seen_at? (h : (ofRoot root).at? p = some v) : Seen root p v := by
  induction p using List.reverseRecOn generalizing v with
  | nil =>
      obtain rfl : ofRoot root = v := by simpa [at?] using h
      exact seen_ofRoot root
  | append_singleton p i ih =>
      rw [at?_concat] at h
      obtain ⟨u, hu, hv⟩ := Option.bind_eq_some_iff.mp h
      exact (ih hu).child hv

theorem exists_at? (h : root.at? p = some n) : ∃ v, (ofRoot root).at? p = some v := by
  induction p using List.reverseRecOn generalizing n with
  | nil => exact ⟨ofRoot root, rfl⟩
  | append_singleton p i ih =>
      rw [Node.at?_concat] at h
      obtain ⟨w, hw, hn⟩ := Option.bind_eq_some_iff.mp h
      obtain ⟨v, hv⟩ := ih hw
      have hnode : v.node = w := by simpa [hw] using (seen_at? hv).node.symm
      refine ⟨v.toChild (n, i), ?_⟩
      rw [at?_concat, hv, Option.bind_some, child?, hnode, hn]
      rfl

theorem mem_reports_iff {r : Report} : r ∈ v.reports ↔
    ∃ u kind, v.at? r.address = some u ∧ u.kind? = some kind ∧
      r.region = ⟨u.node, kind, u.enclosing⟩ := by
  obtain ⟨p, region⟩ := r
  induction p generalizing v with
  | nil =>
      rw [reports_eq, List.mem_append, Option.mem_toList, Option.map_eq_some_iff]
      constructor
      · rintro (⟨kind, hkind, heq⟩ | hbelow)
        · exact ⟨v, kind, rfl, hkind, (congrArg Report.region heq).symm⟩
        · simp [Report.under] at hbelow
      · rintro ⟨u, kind, hu, hkind, rfl⟩
        obtain rfl : v = u := by simpa [at?] using hu
        exact .inl ⟨kind, hkind, rfl⟩
  | cons i p ih =>
      have hat : v.at? (i :: p) = (v.child? i).bind (·.at? p) := by
        rw [at?, List.foldlM_cons]
        rfl
      rw [reports_eq, List.mem_append, Option.mem_toList, Option.map_eq_some_iff, List.mem_flatMap,
        hat]
      constructor
      · rintro (⟨kind, _, heq⟩ | ⟨⟨u, j⟩, hu, hmem⟩)
        · simp at heq
        · obtain ⟨r, hr, heq⟩ := List.mem_map.mp hmem
          obtain ⟨⟨rfl, rfl⟩, rfl⟩ : (j = i ∧ r.address = p) ∧ r.region = region := by
            simpa [Report.under] using heq
          rw [mem_children_iff.mp hu, Option.bind_some]
          exact ih.mp hr
      · rintro ⟨w, kind, hw, hkind, hregion⟩
        obtain ⟨u, hu, hw⟩ := Option.bind_eq_some_iff.mp hw
        refine .inr ⟨(u, i), mem_children_iff.mpr hu, List.mem_map.mpr ⟨⟨p, region⟩, ?_, rfl⟩⟩
        exact ih.mpr ⟨w, kind, hw, hkind, hregion⟩

theorem pairwise_children (v : Visit) : v.children.Pairwise fun a b =>
    a.2 ≠ b.2 ∧ (b.1.wrapped = true ∨ a.1.wrapped = false ∧ a.2 < b.2) := by
  have hall : (v.node.children.zipIdx.map fun numbered => (v.toChild numbered, numbered.2)).Pairwise
      fun a b => a.2 < b.2 := by
    rw [List.pairwise_map, ← List.pairwise_map (f := Prod.snd), List.zipIdx_map_snd]
    exact List.pairwise_lt_range'
  have hmem {a b : Visit × Nat} (ha : a ∈ v.children) (hb : b ∈ v.children) (h : a.2 = b.2) :
      a = b := by
    have ha := mem_children_iff.mp ha
    have hb := mem_children_iff.mp hb
    rw [h, hb] at ha
    exact Prod.ext (Option.some.inj ha).symm h
  rw [children] at hmem ⊢
  refine List.pairwise_append.mpr ⟨?_, ?_, ?_⟩
  · refine (hall.filter _).imp_of_mem fun ha _ hlt => ⟨by omega, .inr ⟨?_, hlt⟩⟩
    simpa using (List.mem_filter.mp ha).2
  · exact (hall.filter _).imp_of_mem fun _ hb hlt => ⟨by omega, .inl (List.mem_filter.mp hb).2⟩
  · intro a ha b hb
    refine ⟨fun h => ?_, .inl (List.mem_filter.mp hb).2⟩
    obtain rfl := hmem (List.mem_append_left _ ha) (List.mem_append_right _ hb) h
    simpa [(List.mem_filter.mp hb).2] using (List.mem_filter.mp ha).2

theorem prefix_of_mem_under {rs : List Report}
    (h : q ∈ (rs.map (Report.under i)).map (p ++ ·.address)) : p ++ [i] <+: q := by
  obtain ⟨r, hr, rfl⟩ := List.mem_map.mp h
  obtain ⟨r, -, rfl⟩ := List.mem_map.mp hr
  exact ⟨r.address, by simp [Report.under]⟩

theorem pairwise_reports {p : Address} {v : Visit} (h : Seen root p v) :
    (v.reports.map (p ++ ·.address)).Pairwise (Before root) := by
  -- on the tree: the reports below a child are in order, and the children are too
  have hbelow : ∀ child ∈ v.children,
      ((child.1.reports.map (Report.under child.2)).map (p ++ ·.address)).Pairwise (Before root) := by
    rintro ⟨u, i⟩ hu
    have hu := mem_children_iff.mp hu
    have ih := pairwise_reports (h.child hu)
    simpa [Report.under, Function.comp_def] using ih
  rw [reports_eq, List.map_append, List.map_flatMap]
  refine List.pairwise_append.mpr ⟨?_, List.pairwise_flatMap.mpr ⟨hbelow, ?_⟩, ?_⟩
  · cases v.kind? with
    | none => exact .nil
    | some kind => exact List.pairwise_singleton _ _
  · refine v.pairwise_children.imp_of_mem fun {a b} ha hb hab q hq q' hq' => .inr ?_
    refine ⟨p, a.2, b.2, prefix_of_mem_under hq, prefix_of_mem_under hq', hab.1, ?_⟩
    rw [← h.child_wrapped (mem_children_iff.mp ha), ← h.child_wrapped (mem_children_iff.mp hb),
      Bool.not_eq_true]
    exact hab.2
  · intro q hq q' hq'
    obtain rfl : p = q := by
      cases hkind : v.kind? with
      | none => simp [hkind] at hq
      | some kind => simpa [hkind, eq_comm] using hq
    obtain ⟨child, -, hq'⟩ := List.mem_flatMap.mp hq'
    have hprefix := prefix_of_mem_under hq'
    refine .inl ⟨(List.prefix_append p [child.2]).trans hprefix, ?_⟩
    rintro rfl
    have := hprefix.length_le
    rw [List.length_append, List.length_singleton] at this
    omega
termination_by sizeOf v.node
decreasing_by exact sizeOf_child hu

end Visit

structure Tells (root : Node) (source : ByteArray) (p : Address) (n d : Node) (kind : Kind)
    (b : Boundary) : Prop where
  first : b.first = n.firstRow + 1
  last : b.last = n.lastRow + 1
  name : b.name = (d.name? source).map String.ofList
  method : kind = .function → (∃ above, Surrounds root above p .classLike) → b.kind = .method
  other : ¬ (kind = .function ∧ ∃ above, Surrounds root above p .classLike) → b.kind = kind

theorem mem_addresses_iff : p ∈ root.reports.map (·.address) ↔ ∃ d kind, Defines root p d kind := by
  rw [List.mem_map]
  constructor
  · rintro ⟨r, hr, rfl⟩
    obtain ⟨u, kind, hu, hkind, _⟩ := Visit.mem_reports_iff.mp hr
    obtain ⟨d, hd⟩ := (Visit.seen_at? hu).kind?_iff.mp hkind
    exact ⟨d, kind, hd⟩
  · rintro ⟨d, kind, hd⟩
    have hn : ∃ n, root.at? p = some n := by
      cases hd with
      | itself hn => exact ⟨_, hn⟩
      | wrapper hn => exact ⟨_, hn⟩
    obtain ⟨n, hn⟩ := hn
    obtain ⟨v, hv⟩ := Visit.exists_at? hn
    have hkind := (Visit.seen_at? hv).kind?_iff.mpr ⟨d, hd⟩
    exact ⟨⟨p, ⟨v.node, kind, v.enclosing⟩⟩, Visit.mem_reports_iff.mpr ⟨v, kind, hv, hkind, rfl⟩, rfl⟩

theorem Defines.name? (h : Defines root p d kind) (hn : root.at? p = some n) (source : ByteArray) :
    n.name? source = d.name? source := by
  cases h with
  | itself hd =>
      obtain rfl : n = d := by simpa [hn] using hd
      rfl
  | @wrapper w _ _ hw hdecorated hd hkind =>
      obtain rfl : n = w := by simpa [hn] using hw
      have hplain : d.isDecorated = false := by
        cases hd : d.isDecorated with
        | false => rfl
        | true => simp [kindOfType_of_decorated hd] at hkind
      rw [Node.name?, Node.name?, if_pos hdecorated, hplain, if_neg Bool.false_ne_true, hd]

theorem Visit.Seen.tells {v : Visit} (h : Seen root p v) (hd : Defines root p d kind)
    (source : ByteArray) :
    Tells root source p v.node d kind (Region.boundary source ⟨v.node, kind, v.enclosing⟩) where
  first := rfl
  last := rfl
  name := congrArg (Option.map String.ofList) (hd.name? h.node source)
  method hkind hclass := by
    simp [Region.boundary, hkind, (h.enclosing _).mpr hclass]
  other hnot := by
    rw [← h.enclosing] at hnot
    simp only [Region.boundary, Bool.and_eq_true, decide_eq_true_iff]
    exact if_neg hnot

theorem tells_of_mem_reports {r : Report} (h : r ∈ root.reports) (source : ByteArray) :
    ∃ n d kind, root.at? r.address = some n ∧ Defines root r.address d kind ∧
      Tells root source r.address n d kind (r.region.boundary source) := by
  obtain ⟨u, kind, hu, hkind, hregion⟩ := Visit.mem_reports_iff.mp h
  have hseen := Visit.seen_at? hu
  obtain ⟨d, hd⟩ := hseen.kind?_iff.mp hkind
  rw [hregion]
  exact ⟨u.node, d, kind, hseen.node, hd, hseen.tells hd source⟩

structure InPreorder (root : Node) (source : ByteArray) (bs : List Boundary) : Prop where
  eq_reports : bs = root.reports.map fun r => r.region.boundary source
  before : (root.reports.map (·.address)).Pairwise (Before root)
  nodup : (root.reports.map (·.address)).Nodup
  mem_iff : ∀ p, p ∈ root.reports.map (·.address) ↔ ∃ d kind, Defines root p d kind
  tells : ∀ r ∈ root.reports, ∃ n d kind, root.at? r.address = some n ∧
    Defines root r.address d kind ∧ Tells root source r.address n d kind (r.region.boundary source)

theorem boundaries_inPreorder (root : Node) (source : ByteArray) :
    InPreorder root source (root.boundaries source) := by
  have hbefore : (root.reports.map (·.address)).Pairwise (Before root) := by
    simpa [reports] using Visit.pairwise_reports (Visit.seen_ofRoot root)
  constructor
  · rw [boundaries, regions_eq_reports, List.map_map]
    rfl
  · exact hbefore
  · exact hbefore.imp Before.ne
  · exact fun p => mem_addresses_iff
  · exact fun r hr => tells_of_mem_reports hr source

def clock : Node :=
  ⟨"class_definition", 0, 63, 0, 3, none,
    [⟨"decorated_definition", 17, 63, 1, 3, none,
      [⟨"function_definition", 38, 63, 2, 3, some "definition", []⟩,
        ⟨"decorator", 17, 30, 1, 1, none, [⟨"arrow_function", 18, 30, 1, 1, none, []⟩]⟩]⟩]⟩

end Node

namespace Grammar

open Node

theorem LazyParser.boundaries_in_preorder {c : Catalogue} {cache : Cache} {p : LazyParser}
    {parse : Text → Option Node} {t : Text} {root : Node}
    (hp : (p.ensure c cache).1.backend = some (.ok parse)) (hroot : parse t = some root) :
    InPreorder root (Utf8.encode t) ((p.ensure c cache).1.boundaries t) := by
  have hboundaries : (p.ensure c cache).1.boundaries t = root.boundaries (Utf8.encode t) := by
    simp only [boundaries, tree?, hp, hroot]
  rw [hboundaries]
  exact boundaries_inPreorder root (Utf8.encode t)

def clocks : Catalogue where
  bindings := [("python", ⟨"tree_sitter_python", "language"⟩)]
  modules := [("tree_sitter_python", [("language", .ok ⟨.ok fun _ => some clock⟩)])]

theorem LazyParser.boundaries_in_preorder_clock :
    (ensure clocks {} { language := "python" }).1.backend = some (.ok fun _ => some clock) ∧
      InPreorder clock (Utf8.encode []) ((ensure clocks {} { language := "python" }).1.boundaries []) ∧
      [0] ∈ clock.reports.map (·.address) := by
  have hp : (ensure clocks {} { language := "python" }).1.backend = some (.ok fun _ => some clock) := rfl
  have h : InPreorder clock (Utf8.encode [])
      ((ensure clocks {} { language := "python" }).1.boundaries []) := boundaries_in_preorder hp rfl
  refine ⟨hp, h, (h.mem_iff [0]).mpr ⟨_, .function, .wrapper rfl rfl rfl (by decide)⟩⟩

end Grammar

end Chunkwise
