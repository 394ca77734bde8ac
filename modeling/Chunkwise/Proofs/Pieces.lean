import Chunkwise.Pieces
import Chunkwise.Proofs.Loops
import Mathlib.Algebra.Ring.Int.Defs

namespace Chunkwise

instance : Membership Nat Span :=
  ⟨fun s line => s.first ≤ line ∧ line ≤ s.last⟩

instance (line : Nat) (s : Span) : Decidable (line ∈ s) :=
  inferInstanceAs (Decidable (_ ∧ _))

def Span.Within (s u : Span) : Prop :=
  u.first ≤ s.first ∧ s.last ≤ u.last

theorem Span.ofLines_eq_ok {first last : Int} (h₁ : 1 ≤ first) (h₂ : first ≤ last) {s : Span}
    (hfirst : s.first = first) (hlast : s.last = last) : Span.ofLines first last = .ok s := by
  rw [Span.ofLines, dif_pos ⟨h₁, h₂⟩]
  congr 1
  ext
  · simp [← hfirst]
  · simp [← hlast]

theorem pieceCount_of_pos (lines : Nat) {width : Int} (h : 0 < width) :
    ∃ count, pieceCount lines width = .ok count ∧
      (count = 0 ∨ count = (lines + width.toNat - 1) / width.toNat) := by
  rw [pieceCount, if_neg (by omega), if_neg (by omega)]
  split
  · exact ⟨0, rfl, .inl rfl⟩
  · exact ⟨_, rfl, .inr rfl⟩

theorem lt_shiftLeft {n e : Nat} (h : 0 < n) (he : e ≠ 0) : n < n <<< e := by
  rw [Nat.shiftLeft_eq]
  exact (Nat.lt_mul_iff_one_lt_right h).mpr (Nat.one_lt_two_pow he)

theorem lt_shiftLeft_of_le {lines : Nat} {width : Int} (hpos : 0 < lines) (hle : width ≤ lines) :
    width.toNat < lines <<< 1075 :=
  Nat.lt_of_le_of_lt (Int.toNat_le.mpr hle) (lt_shiftLeft hpos (by decide))

theorem lt_shiftLeft_of_lt_pow {lines : Nat} {width : Int} (hpos : 0 < lines) (hlt : width < 2 ^ 53) :
    width.toNat < lines <<< 1075 := by
  have hwidth : width.toNat < 2 ^ 53 := by omega
  rw [Nat.shiftLeft_eq]
  calc
    width.toNat < 2 ^ 53 := hwidth
    _ ≤ 2 ^ 1075 := Nat.pow_le_pow_right (by decide) (by decide)
    _ ≤ lines * 2 ^ 1075 := Nat.le_mul_of_pos_left _ hpos

theorem pieceCount_of_lt {lines : Nat} {width : Int} (h : 0 < width)
    (hlt : width.toNat < lines <<< 1075) :
    pieceCount lines width = .ok ((lines + width.toNat - 1) / width.toNat) := by
  rw [pieceCount, if_neg (by omega), if_neg (by omega), if_neg (Nat.not_le.mpr hlt)]

namespace Span

variable {s : Span}

theorem size_pos (s : Span) : 0 < s.size :=
  Nat.succ_pos _

structure CutInto (s : Span) (width : Nat) (pieces : List Span) : Prop where
  first_eq : ∀ i (h : i < pieces.length), pieces[i].first = s.first + i * width
  last_eq : ∀ i (h : i < pieces.length), pieces[i].last = min (s.first + i * width + width - 1) s.last

theorem piece_of_le {width i : Nat} (h : 0 < width) (hi : s.first + i * width ≤ s.last) :
    ∃ p, s.piece width i = .ok p ∧ p.first = s.first + i * width ∧
      p.last = min (s.first + i * width + width - 1) s.last := by
  have h₁ := s.one_le_first
  have hcast : (i : Int) * width = (i * width : Nat) := (Int.natCast_mul i width).symm
  refine ⟨⟨s.first + i * width, min (s.first + i * width + width - 1) s.last, by omega, by omega⟩,
    ofLines_eq_ok ?_ ?_ ?_ ?_, rfl, rfl⟩
  · omega
  · omega
  · simp only [hcast]
    omega
  · simp only [hcast]
    omega

theorem pieces_of_count {width count : Nat} (h : 0 < width)
    (hcount : pieceCount s.size width = .ok count)
    (hlast : ∀ i < count, s.first + i * width ≤ s.last) :
    ∃ ps, s.pieces width = .ok ps ∧ ps.length = count ∧ s.CutInto width ps := by
  obtain ⟨ps, hps⟩ : ∃ ps, (List.range count).mapM (s.piece width) = .ok ps :=
    exists_mapM_ok _ fun i hi => by
      obtain ⟨p, hp, -⟩ := piece_of_le h (hlast i (List.mem_range.mp hi))
      exact ⟨p, hp⟩
  have hall := mapM_eq_ok_iff.mp hps
  have hlen : ps.length = count := by simpa using hall.length_eq.symm
  have hpiece : ∀ i (hi : i < ps.length), ps[i].first = s.first + i * width ∧
      ps[i].last = min (s.first + i * width + width - 1) s.last := by
    intro i hi
    have hget := hall.get (i := i) (by simpa [hlen] using hi) hi
    obtain ⟨p, hp, hfirst, hlst⟩ := piece_of_le h (hlast i (by omega))
    simp only [List.get_eq_getElem, List.getElem_range, hp, Except.ok.injEq] at hget
    exact hget ▸ ⟨hfirst, hlst⟩
  refine ⟨ps, ?_, hlen, fun i hi => (hpiece i hi).1, fun i hi => (hpiece i hi).2⟩
  rw [pieces, hcount]
  exact hps

theorem length_pieces {width : Int} {ps : List Span} {count : Nat} (hps : s.pieces width = .ok ps)
    (hcount : pieceCount s.size width = .ok count) : ps.length = count := by
  rw [pieces, hcount] at hps
  have hlen := (mapM_eq_ok_iff.mp hps).length_eq
  rwa [List.length_range, eq_comm] at hlen

theorem lt_ceil_iff {lines width i : Nat} (h : 0 < width) :
    i < (lines + width - 1) / width ↔ i * width < lines := by
  rw [Nat.lt_iff_add_one_le, Nat.le_div_iff_mul_le h, Nat.add_mul]
  omega

theorem exists_pieces (s : Span) {width : Int} (h : 0 < width) :
    ∃ ps, s.pieces width = .ok ps ∧ s.CutInto width.toNat ps := by
  obtain ⟨w, rfl⟩ := Int.eq_ofNat_of_zero_le (Int.le_of_lt h)
  have hw : 0 < w := by omega
  obtain ⟨count, hcount, hzero | hceil⟩ := pieceCount_of_pos s.size h
  · obtain ⟨ps, hps, -, hcut⟩ := pieces_of_count hw hcount (by omega)
    exact ⟨ps, hps, hcut⟩
  · obtain ⟨ps, hps, -, hcut⟩ := pieces_of_count hw hcount fun i hi => by
      rw [hceil, Int.toNat_natCast, lt_ceil_iff hw, size] at hi
      have := s.first_le_last
      omega
    exact ⟨ps, hps, hcut⟩

theorem pieces_of_ceil (s : Span) {width : Nat} (h : 0 < width) (hlt : width < s.size <<< 1075) :
    ∃ ps, s.pieces width = .ok ps ∧ ps.length = (s.size + width - 1) / width ∧
      s.CutInto width ps := by
  have hcount := pieceCount_of_lt (Int.natCast_pos.mpr h) hlt
  rw [Int.toNat_natCast] at hcount
  refine pieces_of_count h hcount fun i hi => ?_
  rw [lt_ceil_iff h, size] at hi
  have := s.first_le_last
  omega

theorem exists_pieces_ne_nil {width : Int} (h : 0 < width) (hle : width ≤ s.size) :
    ∃ ps, s.pieces width = .ok ps ∧ s.CutInto width.toNat ps ∧ ps ≠ [] := by
  obtain ⟨w, rfl⟩ := Int.eq_ofNat_of_zero_le (Int.le_of_lt h)
  have hw : 0 < w := by omega
  obtain ⟨ps, hps, hlen, hcut⟩ := s.pieces_of_ceil hw (lt_shiftLeft_of_le s.size_pos hle)
  refine ⟨ps, hps, hcut, ?_⟩
  rw [← List.length_pos_iff, hlen, lt_ceil_iff hw]
  omega

theorem exists_mem_pieces {width : Int} (h : 0 < width) (hlt : width.toNat < s.size <<< 1075)
    {ps : List Span} (hps : s.pieces width = .ok ps) {line : Nat} (hline : line ∈ s) :
    ∃ p ∈ ps, line ∈ p := by
  obtain ⟨hfirst, hlast⟩ := hline
  obtain ⟨w, rfl⟩ := Int.eq_ofNat_of_zero_le (Int.le_of_lt h)
  have hw : 0 < w := by omega
  obtain ⟨ps', hps', hlen, hcut⟩ := s.pieces_of_ceil hw hlt
  obtain rfl : ps = ps' := Except.ok.inj (hps.symm.trans hps')
  -- the piece that holds the line is found by division
  have hdiv := Nat.div_mul_le_self (line - s.first) w
  have hmod := Nat.lt_div_mul_add (a := line - s.first) hw
  have hi : (line - s.first) / w < ps.length := by
    rw [hlen, lt_ceil_iff hw, size]
    omega
  refine ⟨ps[(line - s.first) / w], List.getElem_mem hi, ?_, ?_⟩
  · rw [hcut.first_eq _ hi]
    omega
  · rw [hcut.last_eq _ hi]
    omega

theorem pieces_zero (s : Span) : s.pieces 0 = .error .divisionByZero := rfl

theorem pieces_of_neg (s : Span) {width : Int} (h : width < 0) : s.pieces width = .ok [] := by
  rw [pieces, pieceCount, if_neg (by omega), if_pos h]
  rfl

namespace CutInto

variable {width : Nat} {ps : List Span} {p : Span}

theorem first_le (hcut : s.CutInto width ps) (hp : p ∈ ps) : s.first ≤ p.first := by
  obtain ⟨i, hi, rfl⟩ := List.mem_iff_getElem.mp hp
  rw [hcut.first_eq i hi]
  omega

theorem last_le (hcut : s.CutInto width ps) (hp : p ∈ ps) : p.last ≤ s.last := by
  obtain ⟨i, hi, rfl⟩ := List.mem_iff_getElem.mp hp
  rw [hcut.last_eq i hi]
  omega

theorem size_le (hcut : s.CutInto width ps) (hp : p ∈ ps) : p.size ≤ width := by
  obtain ⟨i, hi, rfl⟩ := List.mem_iff_getElem.mp hp
  have h₁ := ps[i].one_le_first
  have h₂ := ps[i].first_le_last
  rw [hcut.first_eq i hi] at h₁ h₂
  rw [hcut.last_eq i hi] at h₂
  rw [size, hcut.first_eq i hi, hcut.last_eq i hi]
  omega

theorem pairwise (hcut : s.CutInto width ps) : ps.Pairwise fun p q => p.last < q.first := by
  rw [List.pairwise_iff_getElem]
  intro i j hi hj hij
  have hstep : i * width + width ≤ j * width := by
    rw [← Nat.succ_mul]
    exact Nat.mul_le_mul_right width hij
  have h₁ := s.one_le_first
  rw [hcut.last_eq i hi, hcut.first_eq j hj]
  omega

end CutInto

inductive Tile : Nat → List Span → Nat → Prop
  | nil (above : Nat) : Tile above [] above
  | cons {above bottom : Nat} {s : Span} {ss : List Span} (hfirst : s.first = above + 1)
      (hrest : Tile s.last ss bottom) : Tile above (s :: ss) bottom

namespace Tile

variable {above bottom line : Nat} {ss : List Span}

theorem le (h : Tile above ss bottom) : above ≤ bottom := by
  induction h with
  | nil => exact Nat.le_refl _
  | @cons above bottom s ss hfirst hrest ih =>
      have := s.first_le_last
      omega

theorem bounds (h : Tile above ss bottom) (hs : s ∈ ss) : above < s.first ∧ s.last ≤ bottom := by
  induction h with
  | nil => cases hs
  | @cons above bottom u us hfirst hrest ih =>
      rcases List.mem_cons.mp hs with rfl | hs
      · exact ⟨by omega, hrest.le⟩
      · have := u.first_le_last
        obtain ⟨habove, hlast⟩ := ih hs
        exact ⟨by omega, hlast⟩

theorem pairwise (h : Tile above ss bottom) : ss.Pairwise fun s u => s.last < u.first := by
  induction h with
  | nil => exact .nil
  | cons hfirst hrest ih => exact .cons (fun u hu => (hrest.bounds hu).1) ih

theorem exists_mem (h : Tile above ss bottom) (habove : above < line) (hline : line ≤ bottom) :
    ∃ s ∈ ss, line ∈ s := by
  induction h with
  | nil => omega
  | @cons above bottom s ss hfirst hrest ih =>
      by_cases hlast : line ≤ s.last
      · exact ⟨s, List.mem_cons_self, by omega, hlast⟩
      · obtain ⟨u, hu, hmem⟩ := ih (by omega) hline
        exact ⟨u, List.mem_cons_of_mem _ hu, hmem⟩

theorem exists_first_eq (h : Tile above ss bottom) (hs : s ∈ ss) (hlast : s.last < bottom) :
    ∃ u ∈ ss, u.first = s.last + 1 := by
  induction h with
  | nil => cases hs
  | @cons above bottom v vs hfirst hrest ih =>
      rcases List.mem_cons.mp hs with rfl | hs
      · cases hrest with
        | nil => exact absurd hlast (Nat.lt_irrefl _)
        | cons hnext hrest => exact ⟨_, List.mem_cons_of_mem _ List.mem_cons_self, hnext⟩
      · obtain ⟨u, hu, hnext⟩ := ih hs hlast
        exact ⟨u, List.mem_cons_of_mem _ hu, hnext⟩

theorem concat_iff : Tile above (ss ++ [s]) bottom ↔ Tile above ss (s.first - 1) ∧ s.last = bottom := by
  have hfirst := s.one_le_first
  constructor
  · intro h
    induction ss generalizing above with
    | nil =>
        obtain _ | ⟨hs, hrest⟩ := h
        cases hrest
        have heq : s.first - 1 = above := by omega
        exact ⟨heq ▸ .nil above, rfl⟩
    | cons u us ih =>
        obtain _ | ⟨hu, hrest⟩ := h
        obtain ⟨htile, hlast⟩ := ih hrest
        exact ⟨.cons hu htile, hlast⟩
  · rintro ⟨h, rfl⟩
    generalize hbottom : s.first - 1 = middle at h
    induction h with
    | nil => exact .cons (by omega) (.nil _)
    | cons hu hrest ih => exact .cons hu (ih hbottom)

end Tile

end Span

end Chunkwise
