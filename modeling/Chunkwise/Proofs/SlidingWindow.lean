import Chunkwise.Proofs.Windows
import Chunkwise.SlidingWindow

namespace Chunkwise

namespace Feed

variable {f g : Feed} {fs : List Feed} {fault : Fault}

def append (f g : Feed) : Feed :=
  match f.fault with
  | none => ⟨f.chunks ++ g.chunks, g.fault⟩
  | some _ => f

def concat : List Feed → Feed
  | [] => ofChunks []
  | f :: fs => f.append (concat fs)

theorem append_of_none (h : f.fault = none) (g : Feed) :
    f.append g = ⟨f.chunks ++ g.chunks, g.fault⟩ := by
  rw [append, h]

theorem append_of_some (h : f.fault = some fault) (g : Feed) : f.append g = f := by
  rw [append, h]

theorem ofChunks_append (chunks : List Chunk) (g : Feed) :
    (ofChunks chunks).append g = ⟨chunks ++ g.chunks, g.fault⟩ :=
  append_of_none rfl g

theorem append_ofChunks_nil (f : Feed) : f.append (ofChunks []) = f := by
  cases hf : f.fault with
  | none =>
      rw [append_of_none hf, ofChunks, List.append_nil, ← hf]
  | some fault => exact append_of_some hf _

theorem append_assoc (f g h : Feed) : (f.append g).append h = f.append (g.append h) := by
  cases hf : f.fault with
  | some fault =>
      rw [append_of_some hf, append_of_some hf, append_of_some hf]
  | none =>
      rw [append_of_none hf, append_of_none hf]
      cases hg : g.fault with
      | some fault => rw [append_of_some rfl, append_of_some hg, hg]
      | none => rw [append_of_none rfl, append_of_none hg, List.append_assoc]

theorem concat_of_whole (h : ∀ f ∈ fs, f.fault = none) :
    concat fs = ofChunks (fs.flatMap (·.chunks)) := by
  induction fs with
  | nil => rfl
  | cons f fs ih =>
      obtain ⟨hf, hfs⟩ := List.forall_mem_cons.mp h
      rw [concat, append_of_none hf, ih hfs]
      rfl

end Feed

namespace SlidingWindow

variable {s : Stride} {process : Processor} {t : Text}

def report (process : Processor) (t : Text) (number : Nat) (w : Stride.Window Char) : Feed :=
  match process number w.items with
  | .error fault => .broken fault
  | .ok found => ⟨found.chunks.map (·.shift ((t.take w.before).count '\n')), found.fault⟩

theorem count_step (s : Stride) (t : Text) (before : Nat) :
    (t.take before).count '\n' + ((((t.drop before).take s.width).take s.step).count '\n') =
      (t.take (before + s.step)).count '\n' := by
  have := s.step_add_overlap
  rw [List.take_take, Nat.min_eq_left (by omega), List.take_add, List.count_append]

theorem feedFrom_eq (s : Stride) (process : Processor) (t : Text) (number before : Nat)
    (made : Array Chunk) :
    feedFrom s process number ((t.take before).count '\n') made (s.grid before (t.drop before)) =
      (Feed.ofChunks made.toList).append (.concat
        ((s.grid before (t.drop before)).mapIdx fun k w => report process t (number + k) w)) := by
  generalize hrest : t.drop before = rest
  fun_induction Stride.grid s before rest generalizing number made with
  | case1 before rest ih =>
      subst hrest
      rw [feedFrom, List.mapIdx_cons, Feed.concat, ← Feed.append_assoc, Feed.ofChunks_append, report,
        Nat.add_zero]
      cases process number ((t.drop before).take s.width) with
      | error fault =>
          rw [Feed.append_of_some rfl]
          simp [Feed.broken]
      | ok found =>
          dsimp only
          cases hfound : found.fault with
          | some fault =>
              rw [Feed.append_of_some rfl]
              simp
          | none =>
              have hmade : Feed.mk (made.toList ++
                  found.chunks.map (·.shift ((t.take before).count '\n'))) none =
                  .ofChunks (made ++ found.chunks.map (·.shift ((t.take before).count '\n'))).toList := by
                simp [Feed.ofChunks]
              rw [hmade]
              dsimp only
              rw [count_step]
              split
              · next hlong =>
                  rw [ih hlong _ _ (by rw [List.drop_drop])]
                  simp only [Nat.add_right_comm, Nat.add_assoc]
              · exact (Feed.append_ofChunks_nil _).symm

theorem feed_eq (s : Stride) (process : Processor) (t : Text) :
    feed s process t = .concat ((s.read t).mapIdx (report process t)) := by
  rw [feed, s.read_eq]
  split
  · rfl
  · have h := feedFrom_eq s process t 0 0 #[]
    simp only [Nat.zero_add] at h
    exact h

theorem feed_of_ok {found : Text → List Chunk}
    (h : ∀ k u, process k u = .ok (.ofChunks (found u))) :
    feed s process t = .ofChunks ((s.read t).flatMap fun w =>
      (found w.items).map (·.shift ((t.take w.before).count '\n'))) := by
  have hreport : (s.read t).mapIdx (report process t) = (s.read t).map fun w =>
      .ofChunks ((found w.items).map (·.shift ((t.take w.before).count '\n'))) := by
    apply List.ext_getElem (by simp)
    intro k hk hk'
    rw [List.getElem_mapIdx, List.getElem_map, report, h]
    rfl
  rw [feed_eq, hreport, Feed.concat_of_whole]
  · rw [List.flatMap_map]
    rfl
  · intro f hf
    obtain ⟨w, -, rfl⟩ := List.mem_map.mp hf
    rfl

end SlidingWindow

end Chunkwise
