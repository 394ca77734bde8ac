import Chunkwise.Value
import Mathlib.Data.Nat.Digits.Defs
import Mathlib.Tactic.Common

namespace Chunkwise

namespace Json

def IsPrintable (c : Char) : Prop :=
  0x20 ≤ c.toNat ∧ c.toNat < 0x7F

instance (c : Char) : Decidable (IsPrintable c) :=
  inferInstanceAs (Decidable (_ ∧ _))

def Printable (t : Text) : Prop :=
  ∀ c ∈ t, IsPrintable c

instance (t : Text) : Decidable (Printable t) :=
  List.decidableBAll IsPrintable t

variable {t u : Text} {s : String} {parts : List String}

theorem Printable.append (ht : Printable t) (hu : Printable u) : Printable (t ++ u) :=
  fun c hc => (List.mem_append.mp hc).elim (ht c) (hu c)

theorem Printable.newline_not_mem (h : Printable t) : '\n' ∉ t :=
  fun hc => absurd (h '\n' hc) (by decide)

theorem printable_intercalate {sep : String} (hsep : Printable sep.toList)
    (h : ∀ s ∈ parts, Printable s.toList) : Printable (sep.intercalate parts).toList := by
  induction parts with
  | nil => simp [Printable]
  | cons s parts ih =>
      obtain ⟨hs, hparts⟩ := List.forall_mem_cons.mp h
      cases parts with
      | nil => simpa using hs
      | cons s' parts =>
          rw [String.intercalate_cons_cons, String.toList_append, String.toList_append]
          exact (hs.append hsep).append (ih hparts)

theorem isPrintable_digitChar : ∀ n < 16, IsPrintable n.digitChar := by
  decide

theorem printable_toDigits {base : Nat} (hbase : 1 < base) (hdigits : base ≤ 16) (n : Nat) :
    Printable (Nat.toDigits base n) := by
  induction n using Nat.strong_induction_on with
  | _ n ih =>
      rcases Nat.lt_or_ge n base with hlt | hge
      · rw [Nat.toDigits_of_lt_base hlt]
        simpa [Printable] using isPrintable_digitChar n (by omega)
      · have hrest : n % base < base := Nat.mod_lt n (by omega)
        rw [Nat.toDigits_of_base_le hbase hge]
        apply (ih (n / base) (Nat.div_lt_self (by omega) hbase)).append
        simpa [Printable] using isPrintable_digitChar (n % base) (by omega)

theorem printable_zeros (n : Nat) : Printable (List.replicate n '0') := by
  intro c hc
  rw [List.eq_of_mem_replicate hc]
  decide

theorem printable_hexDigits (width n : Nat) : Printable (hexDigits width n) :=
  (printable_zeros _).append (printable_toDigits (by decide) (by decide) n)

theorem printable_toString (n : Int) : Printable (toString n).toList := by
  have hnat : ∀ n : Nat, Printable n.repr.toList := by
    intro n
    rw [Nat.toList_repr]
    exact printable_toDigits (by decide) (by decide) n
  change Printable n.repr.toList
  rw [Int.repr_eq_if]
  split
  · exact hnat _
  · rw [String.toList_append]
    exact Printable.append (by decide) (hnat _)

theorem printable_numeral (mantissa : Int) (places : Nat) :
    Printable (numeral mantissa places).toList := by
  rw [numeral]
  split
  · exact printable_toString mantissa
  · have hdigits : Printable (Nat.toDigits 10 mantissa.natAbs) := printable_toDigits (by decide) (by decide) _
    have hpadded := (printable_zeros (places + 1 - (Nat.toDigits 10 mantissa.natAbs).length)).append
      hdigits
    have hsign : Printable (if mantissa < 0 then ['-'] else []) := by split <;> decide
    rw [String.toList_ofList]
    refine (hsign.append fun c hc => hpadded c (List.mem_of_mem_take hc)).append ?_
    exact List.forall_mem_cons.mpr ⟨by decide, fun c hc => hpadded c (List.mem_of_mem_drop hc)⟩

theorem printable_escape (c : Char) : Printable (escape c) := by
  have hunit : ∀ n, Printable (unicodeEscape n) := by
    intro n
    exact Printable.append (t := ['\\', 'u']) (by decide) (printable_hexDigits 4 n)
  rw [escape]
  split_ifs with _ _ _ _ _ _ _ hprintable
  · decide
  · decide
  · decide
  · decide
  · decide
  · decide
  · decide
  · simpa [Printable, IsPrintable] using hprintable
  · exact hunit _
  · exact (hunit _).append (hunit _)

theorem printable_quote (s : String) : Printable (quote s).toList := by
  have hinner : Printable (s.toList.flatMap escape) := by
    intro c hc
    obtain ⟨d, -, hd⟩ := List.mem_flatMap.mp hc
    exact printable_escape d c hd
  rw [quote, String.toList_ofList]
  exact Printable.append (t := ['"']) (by decide) (hinner.append (by decide))

mutual

theorem printable_render : ∀ v : Value, Printable (render v).toList
  | .null => by decide
  | .bool b => by cases b <;> decide
  | .number m p => printable_numeral m p
  | .string s => printable_quote s
  | .array items => by
      rw [render, String.toList_append, String.toList_append]
      exact (Printable.append (by decide) (printable_intercalate (by decide)
        (printable_renderItems items))).append (by decide)
  | .object fields => by
      rw [render, String.toList_append, String.toList_append]
      exact (Printable.append (by decide) (printable_intercalate (by decide)
        (printable_renderFields fields))).append (by decide)

theorem printable_renderItems : ∀ vs : List Value, ∀ s ∈ renderItems vs, Printable s.toList
  | [] => by simp [renderItems]
  | v :: vs => by
      rw [renderItems]
      exact List.forall_mem_cons.mpr ⟨printable_render v, printable_renderItems vs⟩

theorem printable_renderFields : ∀ fields : List (String × Value), ∀ s ∈ renderFields fields, Printable s.toList
  | [] => by simp [renderFields]
  | (key, v) :: fields => by
      rw [renderFields]
      refine List.forall_mem_cons.mpr ⟨?_, printable_renderFields fields⟩
      rw [String.toList_append, String.toList_append]
      exact ((printable_quote key).append (by decide)).append (printable_render v)

end

end Json

end Chunkwise
