import Mathlib
import Chunkwise.Text.Blank
import Chunkwise.Text.LowerCase

namespace Chunkwise

namespace LowerCase

variable {r s : Run} {n : Nat} {c d : Char} {before after t : Text}

def ascii : Run :=
  ⟨0x41, 0x5A, 1, 32⟩

def letters : List Run :=
  ascii :: runs

def capitals : List Run :=
  ⟨0x130, 0x130, 1, 0⟩ :: letters

def blanks : List Run := [
  ⟨0x09, 0x0D, 1, 0⟩, ⟨0x1C, 0x20, 1, 0⟩, ⟨0x85, 0x85, 1, 0⟩, ⟨0xA0, 0xA0, 1, 0⟩, ⟨0x1680, 0x1680, 1, 0⟩,
  ⟨0x2000, 0x200A, 1, 0⟩, ⟨0x2028, 0x2029, 1, 0⟩, ⟨0x202F, 0x202F, 1, 0⟩, ⟨0x205F, 0x205F, 1, 0⟩,
  ⟨0x3000, 0x3000, 1, 0⟩]

namespace Run

def image (r : Run) : Run :=
  ⟨(r.first + r.distance).toNat, (r.last + r.distance).toNat, r.stride, 0⟩

def lands (r : Run) : Bool :=
  0 ≤ r.first + r.distance &&
    (r.image.last < 0xD800 || (0xDFFF < r.image.first && r.image.last < 0x110000))

def misses (r s : Run) : Bool :=
  Nat.blt r.last s.first || Nat.blt s.last r.first ||
    (Nat.blt s.first r.first && (r.first - s.first) % s.stride != 0 &&
      (r.first == r.last || r.stride % s.stride == 0))

theorem covers_iff : r.covers n = true ↔ r.first ≤ n ∧ n ≤ r.last ∧ r.stride ∣ n - r.first := by
  simp [covers, and_assoc, Nat.dvd_iff_mod_eq_zero]

theorem covers_image (h : r.lands = true) (hn : r.covers n = true) :
    r.image.covers (n + r.distance).toNat = true := by
  obtain ⟨hfirst, hlast, hstride⟩ := covers_iff.mp hn
  simp only [lands, Bool.and_eq_true, decide_eq_true_eq] at h
  have hsub : (n + r.distance).toNat - (r.first + r.distance).toNat = n - r.first := by omega
  refine covers_iff.mpr ⟨?_, ?_, ?_⟩
  · simp only [image]; omega
  · simp only [image]; omega
  · simpa only [image, hsub] using hstride

theorem not_covers_of_misses (h : r.misses s = true) (hn : r.covers n = true) : ¬ s.covers n = true := by
  intro hs
  obtain ⟨hfirst, hlast, hstride⟩ := covers_iff.mp hn
  obtain ⟨hfirst', hlast', hstride'⟩ := covers_iff.mp hs
  simp only [misses, Bool.or_eq_true, Bool.and_eq_true, Nat.blt_eq, bne_iff_ne, beq_iff_eq] at h
  rcases h with (h | h) | ⟨⟨hlt, hbetween⟩, hstep⟩
  · omega
  · omega
  · apply hbetween
    apply Nat.mod_eq_zero_of_dvd
    rcases hstep with hsingle | hstep
    · rwa [show r.first = n by omega]
    · have hsteps := Nat.dvd_sub hstride' ((Nat.dvd_of_mod_eq_zero hstep).trans hstride)
      rwa [show n - s.first - (n - r.first) = r.first - s.first by omega] at hsteps

end Run

theorem letters_land : letters.all Run.lands = true := by
  decide +kernel

theorem images_miss : ((letters.map Run.image).all fun r => (capitals ++ blanks).all r.misses) = true := by
  decide +kernel

theorem blanks_miss : (blanks.all fun r => capitals.all r.misses) = true := by
  decide +kernel

theorem not_covers_image (hr : r ∈ letters) (hn : r.covers n = true) (hs : s ∈ capitals ++ blanks) :
    ¬ s.covers (n + r.distance).toNat = true := by
  have hlands := List.all_eq_true.mp letters_land r hr
  have himage := List.all_eq_true.mp images_miss r.image (List.mem_map_of_mem hr)
  exact Run.not_covers_of_misses (List.all_eq_true.mp himage s hs) (Run.covers_image hlands hn)

theorem isBlank_iff : isBlank c = true ↔ ∃ b ∈ blanks, b.covers c.toNat = true := by
  simp only [isBlank, blanks, Run.covers_iff, Bool.or_eq_true, Bool.and_eq_true, decide_eq_true_eq,
    beq_iff_eq, List.exists_mem_cons_iff, List.not_mem_nil, false_and, exists_false, or_false,
    Nat.one_dvd, and_true]
  omega

theorem toNat_ofNat_of_lands (h : r.lands = true) (hn : r.covers n = true) :
    (Char.ofNat (n + r.distance).toNat).toNat = (n + r.distance).toNat := by
  obtain ⟨hfirst, hlast, -⟩ := Run.covers_iff.mp (Run.covers_image h hn)
  simp only [Run.lands, Bool.and_eq_true, Bool.or_eq_true, decide_eq_true_eq] at h
  rw [Char.toNat_ofNat, if_pos]
  simp only [Nat.isValidChar]
  omega

theorem ascii_covers_iff : ascii.covers c.toNat = true ↔ c.isUpper = true := by
  simp [Run.covers_iff, ascii, Char.isUpper, UInt32.le_iff_toNat_le]

theorem runs_not_ascii : runs.all (fun r => Nat.ble 0x80 r.first) = true := by
  decide +kernel

theorem not_covers_ascii (hr : r ∈ runs) (hc : c.toNat < 0x80) : ¬ r.covers c.toNat = true := by
  intro hcovers
  have hbound := Nat.le_of_ble_eq_true (List.all_eq_true.mp runs_not_ascii r hr)
  have hfirst := (Run.covers_iff.mp hcovers).1
  omega

inductive Moves (c : Char) : Char → Prop
  | stays (h : ∀ r ∈ letters, ¬ r.covers c.toNat = true) : Moves c c
  | moves {d : Char} {r : Run} (hr : r ∈ letters) (hcovers : r.covers c.toNat = true)
      (hd : d.toNat = (c.toNat + r.distance).toNat) : Moves c d

theorem moves_toLower (hc : c.toNat < 0x80) : Moves c c.toLower := by
  by_cases hupper : c.isUpper = true
  · have hcovers := ascii_covers_iff.mpr hupper
    have hland := toNat_ofNat_of_lands (by decide) hcovers
    rw [Char.toLower_eq_of_isUpper hupper]
    exact .moves List.mem_cons_self hcovers hland
  · rw [Char.toLower_eq_of_not_isUpper hupper]
    refine .stays (List.forall_mem_cons.mpr ⟨mt ascii_covers_iff.mp hupper, fun r hr => ?_⟩)
    exact not_covers_ascii hr hc

theorem moves_ofChar (c : Char) : Moves c (ofChar c) := by
  rw [ofChar]
  split
  · next hascii => exact moves_toLower hascii
  · next hascii =>
      split
      · next hnone =>
          refine .stays (List.forall_mem_cons.mpr ⟨fun hcovers => ?_, List.find?_eq_none.mp hnone⟩)
          have : c.toNat ≤ 0x5A := (Run.covers_iff.mp hcovers).2.1
          omega
      · next r hr =>
          have hmem : r ∈ letters := List.mem_cons_of_mem _ (List.mem_of_find?_eq_some hr)
          have hcovers := List.find?_some hr
          have hlands := List.all_eq_true.mp letters_land r hmem
          exact .moves hmem hcovers (toNat_ofNat_of_lands hlands hcovers)

structure Settled (c : Char) : Prop where
  ne_dottedI : c ≠ capitalDottedI
  ne_sigma : c ≠ capitalSigma
  ofChar_eq : ofChar c = c

theorem settled_of_not_covers (h : ∀ s ∈ capitals, ¬ s.covers c.toNat = true) : Settled c where
  ne_dottedI := by
    rintro rfl
    exact h _ List.mem_cons_self (by decide)
  ne_sigma := by
    rintro rfl
    have hsigma : ∃ s ∈ capitals, s.covers capitalSigma.toNat = true := by decide +kernel
    obtain ⟨s, hs, hcovers⟩ := hsigma
    exact h s hs hcovers
  ofChar_eq := by
    have hletters := (List.forall_mem_cons.mp h).2
    have hmoves := moves_ofChar c
    generalize ofChar c = d at hmoves ⊢
    cases hmoves with
    | stays _ => rfl
    | moves hr hcovers _ => exact absurd hcovers (hletters _ hr)

theorem settled_ofChar (hc : c ≠ capitalDottedI) : Settled (ofChar c) := by
  apply settled_of_not_covers
  have hmoves := moves_ofChar c
  generalize ofChar c = d at hmoves ⊢
  cases hmoves with
  | stays h =>
      refine List.forall_mem_cons.mpr ⟨fun hcovers => hc ?_, h⟩
      have hfirst : 0x130 ≤ c.toNat := (Run.covers_iff.mp hcovers).1
      have hlast : c.toNat ≤ 0x130 := (Run.covers_iff.mp hcovers).2.1
      rw [← Char.ofNat_toNat c, le_antisymm hlast hfirst, capitalDottedI]
  | moves hr hcovers hd =>
      intro s hs
      rw [hd]
      exact not_covers_image hr hcovers (List.mem_append_left _ hs)

theorem not_isBlank_of_covers (hs : s ∈ capitals) (hc : s.covers c.toNat = true) : isBlank c = false := by
  rw [Bool.eq_false_iff]
  intro hblank
  obtain ⟨b, hb, hcovers⟩ := isBlank_iff.mp hblank
  have hmiss := List.all_eq_true.mp (List.all_eq_true.mp blanks_miss b hb) s hs
  exact Run.not_covers_of_misses hmiss hcovers hc

theorem isBlank_ofChar (c : Char) : isBlank (ofChar c) = isBlank c := by
  have hmoves := moves_ofChar c
  generalize ofChar c = d at hmoves ⊢
  cases hmoves with
  | stays _ => rfl
  | moves hr hcovers hd =>
      rw [not_isBlank_of_covers (List.mem_cons_of_mem _ hr) hcovers, Bool.eq_false_iff]
      intro hblank
      obtain ⟨b, hb, hd'⟩ := isBlank_iff.mp hblank
      rw [hd] at hd'
      exact not_covers_image hr hcovers (List.mem_append_right _ hb) hd'

theorem inContext_ne_nil : inContext before c after ≠ [] := by
  rw [inContext]
  split
  · exact List.cons_ne_nil _ _
  · split
    · exact List.cons_ne_nil _ _
    · exact List.cons_ne_nil _ _

theorem mem_inContext (hd : d ∈ inContext before c after) :
    c = capitalDottedI ∧ (d = 'i' ∨ d = combiningDot) ∨ c = capitalSigma ∧ d = finalSigma ∨
      c ≠ capitalDottedI ∧ d = ofChar c := by
  rw [inContext] at hd
  split at hd
  · next hc => exact .inl ⟨hc, by simpa using hd⟩
  · next hc =>
      split at hd
      · next hfinal =>
          simp only [Bool.and_eq_true, decide_eq_true_eq] at hfinal
          exact .inr (.inl ⟨hfinal.1.1, List.mem_singleton.mp hd⟩)
      · exact .inr (.inr ⟨hc, List.mem_singleton.mp hd⟩)

theorem settled_of_mem_inContext (hd : d ∈ inContext before c after) : Settled d := by
  rcases mem_inContext hd with ⟨-, rfl | rfl⟩ | ⟨-, rfl⟩ | ⟨hc, rfl⟩
  · exact settled_of_not_covers (by decide +kernel)
  · exact settled_of_not_covers (by decide +kernel)
  · exact settled_of_not_covers (by decide +kernel)
  · exact settled_ofChar hc

theorem isBlank_of_mem_inContext (hd : d ∈ inContext before c after) : isBlank d = isBlank c := by
  rcases mem_inContext hd with ⟨rfl, rfl | rfl⟩ | ⟨rfl, rfl⟩ | ⟨-, rfl⟩
  · decide
  · decide
  · decide
  · exact isBlank_ofChar c

theorem settled_of_mem_ofText (hd : d ∈ ofText before t) : Settled d := by
  induction t generalizing before with
  | nil => cases hd
  | cons c after ih =>
      rcases List.mem_append.mp hd with hd | hd
      · exact settled_of_mem_inContext hd
      · exact ih hd

theorem ofText_of_settled (h : ∀ c ∈ t, Settled c) : ofText before t = t := by
  induction t generalizing before with
  | nil => rfl
  | cons c after ih =>
      obtain ⟨hc, hafter⟩ := List.forall_mem_cons.mp h
      rw [ofText, ih hafter, inContext, if_neg hc.ne_dottedI, hc.ofChar_eq, if_neg]
      · rfl
      · simp [hc.ne_sigma]

theorem exists_head_of_mem_ofText (hd : d ∈ (ofText before t).head?) :
    ∃ c ∈ t.head?, isBlank d = isBlank c := by
  cases t with
  | nil => cases hd
  | cons c after =>
      rw [ofText, List.head?_append_of_ne_nil _ inContext_ne_nil] at hd
      exact ⟨c, rfl, isBlank_of_mem_inContext (List.mem_of_head? hd)⟩

theorem exists_last_of_mem_ofText (hd : d ∈ (ofText before t).getLast?) :
    ∃ c ∈ t.getLast?, isBlank d = isBlank c := by
  induction t generalizing before with
  | nil => cases hd
  | cons c after ih =>
      cases after with
      | nil =>
          rw [ofText, ofText, List.append_nil] at hd
          exact ⟨c, rfl, isBlank_of_mem_inContext (List.mem_of_getLast? hd)⟩
      | cons a after =>
          have hne : ofText (c :: before) (a :: after) ≠ [] := by
            rw [ofText]
            exact List.append_ne_nil_of_left_ne_nil inContext_ne_nil _
          rw [ofText, List.getLast?_append_of_ne_nil _ hne] at hd
          rw [List.getLast?_cons_cons]
          exact ih hd

end LowerCase

namespace Text

variable {t : Text}

theorem toLower_toLower (t : Text) : t.toLower.toLower = t.toLower :=
  LowerCase.ofText_of_settled fun _ => LowerCase.settled_of_mem_ofText

example : toLower "İΣ".toList = "i\u0307ς".toList ∧ toLower "i\u0307ς".toList = "i\u0307ς".toList := by
  decide +kernel

structure Trimmed (t : Text) : Prop where
  head : ∀ c ∈ t.head?, isBlank c = false
  last : ∀ c ∈ t.getLast?, isBlank c = false

theorem isBlank_head_dropWhile {c : Char} (hc : c ∈ (t.dropWhile isBlank).head?) :
    isBlank c = false := by
  have h := List.head?_dropWhile_not isBlank t
  rw [Option.mem_def.mp hc] at h
  exact h

theorem dropWhile_of_head (h : ∀ c ∈ t.head?, isBlank c = false) : t.dropWhile isBlank = t := by
  cases t with
  | nil => rfl
  | cons c r => exact List.dropWhile_cons_of_neg (by simp [h c rfl])

theorem trimmed_trim (t : Text) : t.trim.Trimmed where
  head c hc := by
    have hprefix : t.trim <+: t.dropWhile isBlank := List.rdropWhile_prefix isBlank _
    obtain ⟨r, hr⟩ := hprefix
    apply isBlank_head_dropWhile (t := t)
    rw [← hr, List.head?_append, Option.mem_def.mp hc]
    rfl
  last c hc := by
    rw [trim, trimEnd, List.getLast?_reverse] at hc
    exact isBlank_head_dropWhile hc

theorem Trimmed.trim_eq (h : t.Trimmed) : t.trim = t := by
  have hlast : ∀ c ∈ t.reverse.head?, isBlank c = false := by
    rw [List.head?_reverse]
    exact h.last
  rw [trim, trimStart, dropWhile_of_head h.head, trimEnd, dropWhile_of_head hlast, List.reverse_reverse]

theorem Trimmed.toLower (h : t.Trimmed) : t.toLower.Trimmed where
  head d hd := by
    obtain ⟨c, hc, hblank⟩ := LowerCase.exists_head_of_mem_ofText hd
    rw [hblank, h.head c hc]
  last d hd := by
    obtain ⟨c, hc, hblank⟩ := LowerCase.exists_last_of_mem_ofText hd
    rw [hblank, h.last c hc]

end Text

end Chunkwise
