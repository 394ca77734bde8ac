import Chunkwise.Proofs.Language.Registry
import Chunkwise.Proofs.Text.LowerCase
import Chunkwise.Proofs.Tree.Loading

namespace Chunkwise

namespace Language

def plain (name : String) : String :=
  String.ofList (Text.toLower (Text.trim name.toList))

theorem canonical_eq (name : String) : canonical name = resolveAlias (plain name) := rfl

theorem plain_plain (name : String) : plain (plain name) = plain name := by
  have htrimmed := (Text.trimmed_trim name.toList).toLower
  rw [plain, plain, String.toList_ofList, htrimmed.trim_eq, Text.toLower_toLower]

theorem canonical_of_alias : ∀ entry ∈ aliases, canonical entry.2 = entry.2 := by
  decide +kernel

theorem canonical_canonical (name : String) : canonical (canonical name) = canonical name := by
  rw [canonical_eq name, resolveAlias]
  cases halias : aliases.lookup (plain name) with
  | none =>
      rw [Option.getD_none, canonical_eq, plain_plain, resolveAlias, halias, Option.getD_none]
  | some full =>
      rw [Option.getD_some]
      exact canonical_of_alias (plain name, full) (mem_of_lookup halias)

end Language

namespace Registry

variable {π : Type}

theorem canonical_of_mem_languages {fallback : π} {history : History π} {key : String}
    (h : key ∈ (registryAfter fallback history).languages) : Language.canonical key = key := by
  obtain ⟨p, hp⟩ := mem_languages_iff.mp h
  obtain ⟨_, language, _, -, rfl, -⟩ := (lookup_registryAfter fallback history key p).mp hp
  exact Language.canonical_canonical language

theorem has_of_mem_languages {fallback : π} {history : History π} {key : String}
    (h : key ∈ (registryAfter fallback history).languages) :
    (registryAfter fallback history).has key = true := by
  rw [has, registered?, canonical_of_mem_languages h, Option.isSome_iff_exists]
  exact mem_languages_iff.mp h

end Registry

namespace Grammar

theorem History.canonical_language (name : String) (history : History) :
    Language.canonical (history.language name) = history.language name := by
  fun_induction History.language name history with
  | case1 => exact Language.canonical_canonical name
  | case2 => exact Language.canonical_canonical _
  | case3 modules other language before hother ih => exact ih
  | case4 step before hnew ih => exact ih

end Grammar

namespace Language

theorem canonical_idempotent :
    (∀ name, canonical (canonical name) = canonical name) ∧
    (∀ (π : Type) (fallback : π) (history : Registry.History π),
      ∀ name ∈ (Registry.registryAfter fallback history).languages,
        (Registry.registryAfter fallback history).has name = true) ∧
    (∀ language, canonical (Grammar.LazyParser.new language).language =
      (Grammar.LazyParser.new language).language) ∧
    ∀ (bindings : List (String × Grammar.Binding)) (history : Grammar.History) (parser : String),
      canonical ((Grammar.sessionAfter bindings history).parser parser).language =
        ((Grammar.sessionAfter bindings history).parser parser).language := by
  refine ⟨canonical_canonical, fun π fallback history name => Registry.has_of_mem_languages, ?_, ?_⟩
  · intro language
    rw [(Grammar.LazyParser.fits_new {} language).language_eq]
    exact canonical_canonical language
  · intro bindings history parser
    have hfollows := Grammar.Session.follows_sessionAfter bindings history
    rw [(hfollows.parser parser).language_eq]
    exact history.canonical_language parser

end Language

end Chunkwise
