import Chunkwise.Proofs.Windows

namespace Chunkwise

namespace Stride

structure Buffer (α : Type) where
  before : Nat := 0
  held : List α := []
  filled : Bool := false
  found : List (Window α) := []

namespace Buffer

variable {α : Type} {s : Stride} {b : Buffer α} {seen items : List α} {count : Nat}

def push (s : Stride) (b : Buffer α) (x : α) : Buffer α :=
  let held := b.held ++ [x]
  if held.length = s.width then
    { before := b.before + s.step
      held := held.drop s.step
      filled := true
      found := b.found ++ [⟨b.before, held⟩] }
  else { b with held := held }

def windows (s : Stride) (b : Buffer α) : List (Window α) :=
  if b.held ≠ [] ∧ (b.filled = false ∨ s.overlap < b.held.length) then
    b.found ++ [⟨b.before, b.held⟩]
  else b.found

structure Follows (s : Stride) (seen : List α) (count : Nat) (b : Buffer α) : Prop where
  before : b.before = count * s.step
  held : b.held = seen.drop (count * s.step)
  room : b.held.length < s.width
  filled : b.filled = decide (0 < count)
  shared : 0 < count → count * s.step + s.overlap ≤ seen.length
  found : b.found = (List.range count).map fun k =>
    ⟨k * s.step, (seen.drop (k * s.step)).take s.width⟩

theorem follows_empty (s : Stride) : Follows s [] 0 ({} : Buffer α) where
  before := by simp
  held := by simp
  room := Nat.zero_lt_of_lt s.overlap_lt_width
  filled := rfl
  shared := fun h => absurd h (Nat.lt_irrefl 0)
  found := rfl

namespace Follows

theorem start_le (h : Follows s seen count b) : count * s.step ≤ seen.length := by
  rcases Nat.eq_zero_or_pos count with rfl | hpos
  · simp
  · have := h.shared hpos
    omega

theorem length_held (h : Follows s seen count b) : b.held.length = seen.length - count * s.step := by
  rw [h.held, List.length_drop]

theorem held_push (h : Follows s seen count b) (x : α) :
    b.held ++ [x] = (seen ++ [x]).drop (count * s.step) := by
  rw [h.held, List.drop_append_of_le_length h.start_le]

theorem found_append (h : Follows s seen count b) (more : List α) :
    b.found = (List.range count).map fun k =>
      ⟨k * s.step, ((seen ++ more).drop (k * s.step)).take s.width⟩ := by
  rw [h.found]
  apply List.map_congr_left
  intro k hk
  have hlt := List.mem_range.mp hk
  have hshared := h.shared (Nat.zero_lt_of_lt hlt)
  have hstep := s.step_add_overlap
  have hmul : (k + 1) * s.step ≤ count * s.step := Nat.mul_le_mul_right _ hlt
  rw [Nat.succ_mul] at hmul
  rw [List.drop_append_of_le_length (by omega), List.take_append_of_le_length]
  rw [List.length_drop]
  omega

theorem push (h : Follows s seen count b) (x : α) :
    ∃ count, Follows s (seen ++ [x]) count (b.push s x) := by
  have hstep := s.step_add_overlap
  have hheld := h.held_push x
  have hstart := h.start_le
  have hlength : (b.held ++ [x]).length = seen.length + 1 - count * s.step := by
    rw [hheld, List.length_drop, List.length_append, List.length_singleton]
  rw [Buffer.push]
  by_cases hfull : (b.held ++ [x]).length = s.width
  · rw [if_pos hfull]
    refine ⟨count + 1, ?_, ?_, ?_, ?_, ?_, ?_⟩
    · rw [h.before, Nat.succ_mul]
    · rw [hheld, List.drop_drop, Nat.succ_mul]
    · have := s.step_pos
      simp only [List.length_drop, hfull]
      omega
    · simp
    · intro _
      rw [List.length_append, List.length_singleton, Nat.succ_mul]
      omega
    · have hwindow : ((seen ++ [x]).drop (count * s.step)).take s.width = b.held ++ [x] := by
        rw [← hheld, List.take_of_length_le (Nat.le_of_eq hfull)]
      rw [List.range_succ, List.map_append, ← h.found_append, List.map_singleton, hwindow, h.before]
  · rw [if_neg hfull]
    refine ⟨count, h.before, hheld, ?_, h.filled, ?_, h.found_append [x]⟩
    · have := h.room
      simp only [List.length_append, List.length_singleton] at hfull ⊢
      omega
    · intro hpos
      have := h.shared hpos
      rw [List.length_append]
      omega

theorem foldl (h : Follows s seen count b) (items : List α) :
    ∃ count, Follows s (seen ++ items) count (items.foldl (Buffer.push s) b) := by
  induction items generalizing seen count b with
  | nil => exact ⟨count, by simpa using h⟩
  | cons x items ih =>
      obtain ⟨count, hpush⟩ := h.push x
      simpa using ih hpush

theorem windows_eq (h : Follows s seen count b) : b.windows s = s.read seen := by
  have hstep := s.step_add_overlap
  have hlength := h.length_held
  have hroom := h.room
  have hlast : s.windowCount seen.length ≤ count + 1 := by
    rw [← Nat.not_lt, s.lt_windowCount_iff, Nat.succ_mul]
    omega
  rw [windows, s.read_eq_map]
  by_cases hrest : b.held ≠ [] ∧ (b.filled = false ∨ s.overlap < b.held.length)
  · have hmore : count < s.windowCount seen.length := by
      obtain ⟨hne, hopen⟩ := hrest
      rw [← List.length_pos_iff] at hne
      rw [h.filled, decide_eq_false_iff_not] at hopen
      rw [s.lt_windowCount_iff]
      omega
    have hcount : s.windowCount seen.length = count + 1 := by omega
    rw [if_pos hrest, hcount, List.range_succ, List.map_append, ← h.found, List.map_singleton,
      ← h.held, List.take_of_length_le (Nat.le_of_lt hroom), h.before]
  · have hnone : s.windowCount seen.length ≤ count := by
      rw [← Nat.not_lt, s.lt_windowCount_iff]
      rintro ⟨hpos, hopen⟩
      apply hrest
      rw [← List.length_pos_iff, h.filled, decide_eq_false_iff_not]
      rcases hopen with rfl | hopen
      · exact ⟨by omega, .inl (Nat.lt_irrefl 0)⟩
      · exact ⟨by omega, .inr (by omega)⟩
    have hall : count ≤ s.windowCount seen.length := by
      cases count with
      | zero => exact Nat.zero_le _
      | succ count =>
          have hshared := h.shared (Nat.succ_pos count)
          have := s.step_pos
          rw [Nat.succ_mul] at hshared
          apply Nat.succ_le_of_lt
          rw [s.lt_windowCount_iff]
          omega
    rw [if_neg hrest, Nat.le_antisymm hnone hall, h.found]

end Follows

def ofItems (s : Stride) (items : List α) : Buffer α :=
  items.foldl (push s) {}

theorem windows_ofItems (s : Stride) (items : List α) : (ofItems s items).windows s = s.read items := by
  obtain ⟨count, h⟩ := (follows_empty s).foldl items
  exact h.windows_eq

end Buffer

end Stride

end Chunkwise
