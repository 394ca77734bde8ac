import Chunkwise.Tree.Boundaries
import Mathlib.Data.List.Basic
import Mathlib.Data.List.Infix

namespace Chunkwise

abbrev Address := List Nat

namespace Node

def at? (root : Node) (address : Address) : Option Node :=
  address.foldlM (fun n i => n.children[i]?) root

def wraps (n : Node) (i : Nat) : Bool :=
  n.isDecorated && n.children.findIdx? (isField "definition") == some i

structure Visit where
  node : Node
  wrapped : Bool
  enclosing : Option Kind

structure Report where
  address : Address
  region : Region

def Report.under (i : Nat) (r : Report) : Report :=
  { r with address := i :: r.address }

namespace Visit

def kind? (v : Visit) : Option Kind :=
  if v.wrapped then none else v.node.kind?

def toChild (v : Visit) (numbered : Node × Nat) : Visit :=
  ⟨numbered.1, v.kind?.isSome && v.node.wraps numbered.2, v.kind?.or v.enclosing⟩

def children (v : Visit) : List (Visit × Nat) :=
  let all := v.node.children.zipIdx.map fun numbered => (v.toChild numbered, numbered.2)
  all.filter (!·.1.wrapped) ++ all.filter (·.1.wrapped)

def child? (v : Visit) (i : Nat) : Option Visit :=
  v.node.children[i]?.map fun c => v.toChild (c, i)

theorem mem_children_iff {v u : Visit} {i : Nat} : (u, i) ∈ v.children ↔ v.child? i = some u := by
  have hall : (u, i) ∈ v.node.children.zipIdx.map (fun numbered => (v.toChild numbered, numbered.2)) ↔
      v.child? i = some u := by
    simp only [child?, List.mem_map, Prod.exists, Prod.mk.injEq, List.mem_zipIdx_iff_getElem?,
      Option.map_eq_some_iff]
    constructor
    · rintro ⟨c, j, hc, rfl, rfl⟩
      exact ⟨c, hc, rfl⟩
    · rintro ⟨c, hc, rfl⟩
      exact ⟨c, i, hc, rfl, rfl⟩
  rw [children, List.mem_append, List.mem_filter, List.mem_filter, hall]
  cases u.wrapped with
  | false => simp
  | true => simp

theorem sizeOf_child {v u : Visit} {i : Nat} (h : v.child? i = some u) :
    sizeOf u.node < sizeOf v.node := by
  obtain ⟨c, hc, rfl⟩ := Option.map_eq_some_iff.mp h
  have := List.sizeOf_lt_of_mem (List.mem_of_getElem? hc)
  have := v.node.sizeOf_children
  simp only [toChild]
  omega

def reports (v : Visit) : List Report :=
  (v.kind?.map fun kind => ⟨[], v.node, kind, v.enclosing⟩).toList ++
    v.children.attach.flatMap fun ⟨child, _⟩ => child.1.reports.map (.under child.2)
termination_by sizeOf v.node
decreasing_by exact sizeOf_child (mem_children_iff.mp ‹_›)

theorem reports_eq (v : Visit) :
    v.reports = (v.kind?.map fun kind => ⟨[], v.node, kind, v.enclosing⟩).toList ++
      v.children.flatMap fun child => child.1.reports.map (.under child.2) := by
  rw [reports, List.flatMap_subtype fun _ _ => rfl, List.unattach_attach]

def ofRoot (root : Node) : Visit :=
  ⟨root, false, none⟩

end Visit

def reports (root : Node) : List Report :=
  (Visit.ofRoot root).reports

namespace Visit

variable {v : Visit}

theorem children_of_plain (h : ∀ i, (v.kind?.isSome && v.node.wraps i) = false) :
    v.children = v.node.children.zipIdx.map fun numbered =>
      (⟨numbered.1, false, v.kind?.or v.enclosing⟩, numbered.2) := by
  have hchild : v.toChild = fun numbered => ⟨numbered.1, false, v.kind?.or v.enclosing⟩ := by
    funext numbered
    rw [toChild, h]
  simp only [children, hchild, List.filter_map, Function.comp_def, Bool.not_false, List.filter_true,
    List.filter_false, List.map_nil, List.append_nil]

theorem index_ne_of_mem {above below : List Node} {numbered : Node × Nat}
    (h : numbered ∈ above.zipIdx ++ below.zipIdx (above.length + 1)) :
    (above.length == numbered.2) = false := by
  apply beq_eq_false_iff_ne.mpr
  rcases List.mem_append.mp h with h | h
  · have := List.snd_lt_of_mem_zipIdx h
    omega
  · have := List.le_snd_of_mem_zipIdx h
    omega

theorem filter_index (above below : List Node) (d : Node) :
    (above ++ d :: below).zipIdx.filter (above.length == ·.2) = [(d, above.length)] ∧
      (above ++ d :: below).zipIdx.filter (!above.length == ·.2) =
        above.zipIdx ++ below.zipIdx (above.length + 1) := by
  have habove : ∀ numbered ∈ above.zipIdx, (above.length == numbered.2) = false :=
    fun numbered h => index_ne_of_mem (List.mem_append_left (below.zipIdx (above.length + 1)) h)
  have hbelow : ∀ numbered ∈ below.zipIdx (above.length + 1), (above.length == numbered.2) = false :=
    fun numbered h => index_ne_of_mem (List.mem_append_right above.zipIdx h)
  rw [List.zipIdx_append, List.zipIdx_cons, Nat.zero_add]
  constructor
  · rw [List.filter_append, List.filter_eq_nil_iff.mpr (by simpa using habove),
      List.filter_cons_of_pos (by simp), List.filter_eq_nil_iff.mpr (by simpa using hbelow)]
    rfl
  · rw [List.filter_append, List.filter_eq_self.mpr (by simpa using habove),
      List.filter_cons_of_neg (by simp), List.filter_eq_self.mpr (by simpa using hbelow)]

theorem children_of_wrapper {d : Node} {above below : List Node} (hkind : v.kind?.isSome = true)
    (hdecorated : v.node.isDecorated = true) (hchildren : v.node.children = above ++ d :: below)
    (habove : ∀ c ∈ above, isField "definition" c = false) (hd : isField "definition" d = true) :
    v.children = ((above.zipIdx ++ below.zipIdx (above.length + 1)).map fun numbered =>
      (⟨numbered.1, false, v.kind?.or v.enclosing⟩, numbered.2)) ++
        [(⟨d, true, v.kind?.or v.enclosing⟩, above.length)] := by
  have hindex : v.node.children.findIdx? (isField "definition") = some above.length := by
    rw [hchildren, List.findIdx?_append, List.findIdx?_eq_none_iff.mpr habove, List.findIdx?_cons, hd]
    simp
  have hchild : ∀ numbered : Node × Nat, v.toChild numbered =
      ⟨numbered.1, above.length == numbered.2, v.kind?.or v.enclosing⟩ := by
    intro numbered
    rw [toChild, hkind, wraps, hdecorated, hindex]
    rfl
  obtain ⟨hwrapped, hothers⟩ := filter_index above below d
  simp only [children, hchild, List.filter_map, Function.comp_def, hchildren, hwrapped, hothers]
  congr 1
  · apply List.map_congr_left
    intro numbered hmem
    rw [index_ne_of_mem hmem]
  · simp

def regions (v : Visit) : List Region :=
  v.reports.map (·.region)

theorem regions_eq (v : Visit) :
    v.regions = (v.kind?.map fun kind => ⟨v.node, kind, v.enclosing⟩).toList ++
      v.children.flatMap fun child => child.1.regions := by
  have hunder : ∀ (rs : List Report) (i : Nat),
      (rs.map (Report.under i)).map Report.region = rs.map Report.region := by
    intro rs i
    rw [List.map_map]
    rfl
  rw [regions, reports_eq, List.map_append, List.map_flatMap]
  simp only [hunder, ← Option.toList_map, Option.map_map]
  rfl

theorem flatMap_zipIdx {β : Type} (f : Node → List β) (ns : List Node) (k : Nat) :
    (ns.zipIdx k).flatMap (fun numbered => f numbered.1) = ns.flatMap f := by
  rw [← List.flatMap_map Prod.fst f, List.zipIdx_map_fst]

theorem regions_of_plain (h : ∀ i, (v.kind?.isSome && v.node.wraps i) = false) :
    (v.children.flatMap fun child => child.1.regions) =
      v.node.children.flatMap fun c => regions ⟨c, false, v.kind?.or v.enclosing⟩ := by
  rw [children_of_plain h, List.flatMap_map]
  exact flatMap_zipIdx (fun c => regions ⟨c, false, v.kind?.or v.enclosing⟩) _ 0

theorem regions_of_wrapped (d : Node) (enclosing : Option Kind) :
    regions ⟨d, true, enclosing⟩ = d.children.flatMap fun c => regions ⟨c, false, enclosing⟩ := by
  rw [regions_eq, regions_of_plain fun i => rfl]
  rfl

theorem regions_of_wrapper {d : Node} (hkind : v.kind?.isSome = true)
    (hdecorated : v.node.isDecorated = true) (hd : v.node.definition? = some d) :
    (v.children.flatMap fun child => child.1.regions) =
      (v.node.children.eraseP (isField "definition") ++ d.children).flatMap fun c =>
        regions ⟨c, false, v.kind?.or v.enclosing⟩ := by
  obtain ⟨hfield, above, below, hchildren, habove⟩ := List.find?_eq_some_iff_append.mp hd
  have habove : ∀ c ∈ above, isField "definition" c = false := by simpa using habove
  have herase : v.node.children.eraseP (isField "definition") = above ++ below := by
    rw [hchildren, List.eraseP_append_right _ (by simpa using habove), List.eraseP_cons_of_pos hfield]
  rw [children_of_wrapper hkind hdecorated hchildren habove hfield, herase, List.flatMap_append,
    List.flatMap_append, List.flatMap_map, List.flatMap_append,
    flatMap_zipIdx (fun c => regions ⟨c, false, v.kind?.or v.enclosing⟩),
    flatMap_zipIdx (fun c => regions ⟨c, false, v.kind?.or v.enclosing⟩), List.flatMap_append,
    List.flatMap_singleton, regions_of_wrapped]

theorem regions_below (n : Node) (enclosing : Option Kind) :
    regions ⟨n, false, enclosing⟩ = (n.kind?.map fun kind => ⟨n, kind, enclosing⟩).toList ++
      n.regionChildren.flatMap fun c => regions ⟨c, false, n.kind?.or enclosing⟩ := by
  have hkind : Visit.kind? ⟨n, false, enclosing⟩ = n.kind? := rfl
  rw [regions_eq, hkind, regionChildren]
  congr 1
  by_cases h : (n.isDecorated && n.kind?.isSome) = true
  · obtain ⟨hdecorated, hsome⟩ := Bool.and_eq_true_iff.mp h
    rw [if_pos h]
    cases hd : n.definition? with
    | none => simp [Node.kind?, hdecorated, hd] at hsome
    | some d => exact regions_of_wrapper hsome hdecorated hd
  · rw [if_neg h]
    apply regions_of_plain
    intro i
    cases hdecorated : n.isDecorated with
    | false => simp [wraps, hdecorated]
    | true =>
        have hnone : n.kind?.isSome = false := by simpa [hdecorated] using h
        rw [hkind, hnone, Bool.false_and]

end Visit

theorem regionsFrom_toList (found : Array Region) (stack : List (Node × Option Kind)) :
    (regionsFrom found stack).toList =
      found.toList ++ stack.flatMap fun entry => Visit.regions ⟨entry.1, false, entry.2⟩ := by
  fun_induction regionsFrom found stack with
  | case1 => simp
  | case2 found n enclosing rest hkind ih =>
      rw [ih, List.flatMap_append, List.flatMap_cons, List.flatMap_map, Visit.regions_below n, hkind]
      rfl
  | case3 found n enclosing rest kind hkind ih =>
      rw [ih, List.flatMap_append, List.flatMap_cons, List.flatMap_map, Visit.regions_below n, hkind,
        Array.toList_push]
      simp

theorem regions_eq_reports (root : Node) : root.regions = root.reports.map (·.region) := by
  rw [regions, regionsFrom_toList, List.flatMap_singleton]
  rfl

end Node

end Chunkwise
