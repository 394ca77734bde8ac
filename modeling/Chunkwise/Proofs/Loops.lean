import Mathlib.Data.List.Forall2

namespace Chunkwise

variable {ε α β γ σ : Type}

theorem map_eq_ok {f : α → β} {e : Except ε α} {y : β} (h : e.map f = .ok y) :
    ∃ x, e = .ok x ∧ f x = y := by
  cases e with
  | error fault => cases h
  | ok x =>
      cases h
      exact ⟨x, rfl, rfl⟩

theorem bind_eq_ok {f : α → Except ε β} {e : Except ε α} {y : β} (h : e.bind f = .ok y) :
    ∃ x, e = .ok x ∧ f x = .ok y := by
  cases e with
  | error fault => cases h
  | ok x => exact ⟨x, rfl, h⟩

theorem bind_eq_error {f : α → Except ε β} {e : Except ε α} {fault : ε}
    (h : e.bind f = .error fault) : e = .error fault ∨ ∃ x, e = .ok x ∧ f x = .error fault := by
  cases e with
  | error other =>
      cases h
      exact .inl rfl
  | ok x => exact .inr ⟨x, rfl, h⟩

theorem toOption_eq_some {e : Except ε α} {x : α} : e.toOption = some x ↔ e = .ok x := by
  cases e <;> simp [Except.toOption]

theorem sublist_filterMap_toOption (f : α → Except ε β) (xs : List α) :
    ((xs.filterMap fun x => (f x).toOption.map (x, ·)).map (·.1)).Sublist xs := by
  induction xs with
  | nil => exact .slnil
  | cons x xs ih =>
      rw [List.filterMap_cons]
      cases f x with
      | error fault => exact ih.cons x
      | ok y => exact ih.cons_cons x

theorem mapM_eq_ok_iff {f : α → Except ε β} {xs : List α} {ys : List β} :
    xs.mapM f = .ok ys ↔ List.Forall₂ (fun x y => f x = .ok y) xs ys := by
  induction xs generalizing ys with
  | nil =>
      constructor
      · rintro ⟨⟩
        exact .nil
      · rintro ⟨⟩
        rfl
  | cons x xs ih =>
      rw [List.mapM_cons]
      constructor
      · intro h
        cases hx : f x with
        | error e => simp [hx, bind, Except.bind] at h
        | ok y =>
            cases hxs : xs.mapM f with
            | error e => simp [hx, hxs, bind, Except.bind] at h
            | ok zs =>
                simp only [hx, hxs, bind, Except.bind, pure, Except.pure, Except.ok.injEq] at h
                exact h ▸ .cons hx (ih.mp hxs)
      · rintro (_ | ⟨hx, hxs⟩)
        simp only [hx, ih.mpr hxs, bind, Except.bind, pure, Except.pure]

theorem map_mapM_cons {f : α → Except ε β} (x : α) (xs : List α) (s s' : σ) :
    ((x :: xs).mapM f).map (fun _ => s') =
      (f x).map (fun _ => s) >>= fun _ => (xs.mapM f).map fun _ => s' := by
  rw [List.mapM_cons]
  cases f x with
  | error fault => rfl
  | ok y =>
      cases xs.mapM f with
      | error fault => rfl
      | ok ys => rfl

theorem mapM_map_eq (f : α → Except ε β) (g : β → γ) (xs : List α) :
    xs.mapM (fun x => (f x).map g) = (xs.mapM f).map (List.map g) := by
  induction xs with
  | nil => rfl
  | cons x xs ih =>
      rw [List.mapM_cons, List.mapM_cons, ih]
      cases f x with
      | error fault => rfl
      | ok y =>
          cases xs.mapM f with
          | error fault => rfl
          | ok ys => rfl

theorem pairwise_of_forall₂ {P : α → β → Prop} {R : α → α → Prop} {S : β → β → Prop} {xs : List α}
    {ys : List β} (h : List.Forall₂ P xs ys) (hxs : xs.Pairwise R)
    (hpair : ∀ x x' y y', P x y → P x' y' → R x x' → S y y') : ys.Pairwise S := by
  rw [List.pairwise_iff_getElem] at hxs ⊢
  intro i j hi hj hij
  have hlen := h.length_eq
  have hx := h.get (i := i) (by omega) hi
  have hx' := h.get (i := j) (by omega) hj
  exact hpair _ _ _ _ hx hx' (hxs i j (by omega) (by omega) hij)

theorem exists_mapM_forall₂ {f : α → Except ε β} {P : α → β → Prop} (xs : List α)
    (h : ∀ x ∈ xs, ∃ y, f x = .ok y ∧ P x y) : ∃ ys, xs.mapM f = .ok ys ∧ List.Forall₂ P xs ys := by
  induction xs with
  | nil => exact ⟨[], rfl, .nil⟩
  | cons x xs ih =>
      obtain ⟨y, hy, hxy⟩ := h x List.mem_cons_self
      obtain ⟨ys, hys, hall⟩ := ih fun z hz => h z (List.mem_cons_of_mem _ hz)
      exact ⟨y :: ys, mapM_eq_ok_iff.mpr (.cons hy (mapM_eq_ok_iff.mp hys)), .cons hxy hall⟩

theorem exists_mapM_ok {f : α → Except ε β} (xs : List α) (h : ∀ x ∈ xs, ∃ y, f x = .ok y) :
    ∃ ys, xs.mapM f = .ok ys := by
  obtain ⟨ys, hys, -⟩ := exists_mapM_forall₂ (P := fun _ _ => True) xs fun x hx =>
    (h x hx).imp fun _ hy => ⟨hy, trivial⟩
  exact ⟨ys, hys⟩

theorem mapM_eq_error {f : α → Except ε β} {e : ε} {xs : List α}
    (h : ∀ x ∈ xs, f x = .error e ∨ ∃ y, f x = .ok y) (hfail : ∃ x ∈ xs, f x = .error e) :
    xs.mapM f = .error e := by
  induction xs with
  | nil => simp at hfail
  | cons x xs ih =>
      obtain ⟨hx, hxs⟩ := List.forall_mem_cons.mp h
      rw [List.mapM_cons]
      rcases hx with hx | ⟨y, hx⟩
      · rw [hx]
        rfl
      · have hrest : xs.mapM f = .error e := by
          apply ih hxs
          rcases (List.exists_mem_cons_iff _ _ _).mp hfail with hfirst | hlater
          · rw [hx] at hfirst
            cases hfirst
          · exact hlater
        rw [hx, hrest]
        rfl

theorem mem_mapM_iff {f : α → Except ε β} {xs : List α} {ys : List β} (h : xs.mapM f = .ok ys)
    {y : β} : y ∈ ys ↔ ∃ x ∈ xs, f x = .ok y := by
  induction mapM_eq_ok_iff.mp h with
  | nil => simp
  | @cons x z xs zs hx hxs ih =>
      rw [List.mem_cons, ih (mapM_eq_ok_iff.mpr hxs), List.exists_mem_cons_iff, hx, Except.ok.injEq,
        eq_comm]

theorem exists_ok_of_mapM {f : α → Except ε β} {xs : List α} {ys : List β} (h : xs.mapM f = .ok ys) :
    ∀ x ∈ xs, ∃ y, f x = .ok y := by
  induction mapM_eq_ok_iff.mp h with
  | nil => simp
  | @cons x y xs ys hx hxs ih =>
      exact List.forall_mem_cons.mpr ⟨⟨y, hx⟩, ih (mapM_eq_ok_iff.mpr hxs)⟩

theorem mem_flatten_mapM_iff {f : α → Except ε (List β)} {xs : List α} {ys : List β}
    (h : (xs.mapM f).map List.flatten = .ok ys) {y : β} :
    y ∈ ys ↔ ∃ x ∈ xs, ∃ zs, f x = .ok zs ∧ y ∈ zs := by
  obtain ⟨parts, hparts, rfl⟩ := map_eq_ok h
  rw [List.mem_flatten]
  constructor
  · rintro ⟨zs, hzs, hy⟩
    obtain ⟨x, hx, hfx⟩ := (mem_mapM_iff hparts).mp hzs
    exact ⟨x, hx, zs, hfx, hy⟩
  · rintro ⟨x, hx, zs, hfx, hy⟩
    exact ⟨zs, (mem_mapM_iff hparts).mpr ⟨x, hx, hfx⟩, hy⟩

theorem exists_foldlM_ok {step : σ → α → Except ε σ} (Inv : List α → σ → Prop) {s : σ}
    (xs : List α) (init : Inv [] s)
    (keep : ∀ done x rest s, xs = done ++ x :: rest → Inv done s →
      ∃ s', step s x = .ok s' ∧ Inv (done ++ [x]) s') :
    ∃ s', xs.foldlM step s = .ok s' ∧ Inv xs s' := by
  suffices h : ∀ rest done s, xs = done ++ rest → Inv done s →
      ∃ s', rest.foldlM step s = .ok s' ∧ Inv xs s' from h xs [] s rfl init
  intro rest
  induction rest with
  | nil =>
      intro done s hxs hs
      exact ⟨s, rfl, by simpa [hxs] using hs⟩
  | cons x rest ih =>
      intro done s hxs hs
      obtain ⟨s', hstep, hs'⟩ := keep done x rest s hxs hs
      obtain ⟨s'', hrun, hs''⟩ := ih (done ++ [x]) s' (by simp [hxs]) hs'
      refine ⟨s'', ?_, hs''⟩
      rw [List.foldlM_cons, hstep]
      exact hrun

theorem foldl_zipIdx_keeps {step : σ → α × Nat → σ} (Inv : Nat → σ → Prop) {s : σ} (xs : List α)
    (init : Inv 0 s)
    (keep : ∀ n x s, xs[n]? = some x → Inv n s → Inv (n + 1) (step s (x, n))) :
    Inv xs.length (xs.zipIdx.foldl step s) := by
  suffices h : ∀ rest n s, xs.drop n = rest → n + rest.length = xs.length → Inv n s →
      Inv xs.length ((rest.zipIdx n).foldl step s) from h xs 0 s rfl (Nat.zero_add _) init
  intro rest
  induction rest with
  | nil =>
      intro n s _ hlen hs
      rw [← hlen]
      exact hs
  | cons x rest ih =>
      intro n s hdrop hlen hs
      have hx : xs[n]? = some x := by rw [← List.head?_drop, hdrop, List.head?_cons]
      have hrest : xs.drop (n + 1) = rest := by rw [← List.tail_drop, hdrop, List.tail_cons]
      rw [List.length_cons] at hlen
      rw [List.zipIdx_cons, List.foldl_cons]
      exact ih (n + 1) _ hrest (by omega) (keep n x s hx hs)

end Chunkwise
