import Chunkwise.Proofs.Assoc
import Chunkwise.Tree.Grammar

namespace Chunkwise

namespace Grammar

abbrev History := List (Modules × Request)

variable {bindings : List (String × Binding)} {modules : Modules} {c : Catalogue} {cache : Cache}
  {s : Session} {p : LazyParser} {history : History} {request : Request} {name other key : String}
  {result : Except String Handle}

namespace Request

def parser? : Request → Option String
  | .available name | .boundaries name _ | .outline name _ => some name
  | .load _ | .new _ _ | .status _ => none

def creates (name : String) : Request → Bool
  | .new other _ => other == name
  | _ => false

end Request

namespace History

def language (name : String) : History → String
  | [] => Language.canonical name
  | (_, .new other language) :: before =>
      if other == name then Language.canonical language else History.language name before
  | _ :: before => History.language name before

def used (name : String) : History → Bool
  | [] => false
  | (_, request) :: before =>
      if request.creates name then false else request.parser? == some name || used name before

def key? (before : History) : Request → Option String
  | .load language => some language
  | request => request.parser?.map fun name => language name before

def asked : History → List String
  | [] => []
  | (_, request) :: before =>
      match key? before request with
      | none => asked before
      | some key => (asked before).insert key

end History

def sessionAfter (bindings : List (String × Binding)) : History → Session
  | [] => {}
  | (modules, request) :: before => ((sessionAfter bindings before).answer ⟨bindings, modules⟩ request).2

def moduleOf (bindings : List (String × Binding)) (key : String) : Option String :=
  (bindings.lookup key).map Binding.module

theorem find_opened (c : Catalogue) (key : String) : (c.find key).opened = moduleOf c.bindings key := by
  rw [Catalogue.find, moduleOf]
  cases c.bindings.lookup key with
  | none => rfl
  | some b => rfl

structure Cache.Holds (bindings : List (String × Binding)) (keys : List String) (cache : Cache) : Prop where
  known : cache.known.map Prod.fst = keys
  opened : cache.opened.toList = keys.reverse.filterMap (moduleOf bindings)

def Cache.Keeps (before after : Cache) : Prop :=
  ∀ key result, before.known.lookup key = some result → after.known.lookup key = some result

namespace Cache

theorem load_of_known (h : cache.known.lookup key = some result) (c : Catalogue) :
    cache.load c key = (result, cache) := by
  rw [load, h]

theorem lookup_load (c : Catalogue) (cache : Cache) (key : String) :
    (cache.load c key).2.known.lookup key = some (cache.load c key).1 := by
  cases h : cache.known.lookup key with
  | none => simp [load, h]
  | some result => rw [load_of_known h, h]

theorem keeps_load (c : Catalogue) (cache : Cache) (key : String) :
    cache.Keeps (cache.load c key).2 := by
  intro other result h
  cases hkey : cache.known.lookup key with
  | none =>
      have hne : other ≠ key := by
        rintro rfl
        simp [h] at hkey
      simp [load, hkey, List.lookup_cons, beq_eq_false_iff_ne.mpr hne, h]
  | some _ => rw [load_of_known hkey, h]

theorem Holds.mem_iff {keys : List String} (h : cache.Holds bindings keys) :
    key ∈ keys ↔ ∃ result, cache.known.lookup key = some result := by
  rw [← h.known, exists_lookup_iff]

theorem Holds.load {keys : List String} (h : cache.Holds c.bindings keys) (key : String) :
    (cache.load c key).2.Holds c.bindings (keys.insert key) := by
  cases hkey : cache.known.lookup key with
  | none =>
      have hnew : key ∉ keys := by simp [h.mem_iff, hkey]
      rw [List.insert_of_not_mem hnew]
      constructor
      · simp [Cache.load, hkey, h.known]
      · simp only [Cache.load, hkey, find_opened, List.reverse_cons, List.filterMap_append, ← h.opened]
        cases hname : moduleOf c.bindings key with
        | none => simp [hname]
        | some name => simp [hname]
  | some result =>
      rw [load_of_known hkey, List.insert_of_mem (h.mem_iff.mpr ⟨result, hkey⟩)]
      exact h

end Cache

namespace LazyParser

structure Fits (cache : Cache) (lang : String) (used : Bool) (p : LazyParser) : Prop where
  language_eq : p.language = lang
  fresh : used = false → p.backend = none
  loaded : used = true → ∃ result, cache.known.lookup lang = some result ∧
    p.backend = some (result.bind Handle.backend)

variable {lang : String} {used : Bool}

theorem eq_of_fields {q : LazyParser} (hlanguage : p.language = q.language)
    (hbackend : p.backend = q.backend) : p = q := by
  cases p
  cases q
  cases hlanguage
  cases hbackend
  rfl

theorem fits_new (cache : Cache) (language : String) :
    (LazyParser.new language).Fits cache (Language.canonical language) false where
  language_eq := by rw [new]
  fresh _ := by rw [new]
  loaded h := by cases h

theorem Fits.keeps {after : Cache} (h : p.Fits cache lang used) (hkeeps : cache.Keeps after) :
    p.Fits after lang used where
  language_eq := h.language_eq
  fresh := h.fresh
  loaded hused := by
    obtain ⟨result, hresult, hbackend⟩ := h.loaded hused
    exact ⟨result, hkeeps _ _ hresult, hbackend⟩

theorem ensure_cases (c : Catalogue) (cache : Cache) (h : p.Fits cache lang used) :
    used = true ∧ p.ensure c cache = (p, cache) ∨
      used = false ∧ p.ensure c cache =
        (⟨lang, some ((cache.load c lang).1.bind Handle.backend)⟩, (cache.load c lang).2) := by
  cases used with
  | true =>
      obtain ⟨result, _, hbackend⟩ := h.loaded rfl
      exact .inl ⟨rfl, by rw [ensure, hbackend]⟩
  | false => exact .inr ⟨rfl, by rw [ensure, h.fresh rfl, ← h.language_eq]⟩

theorem Fits.ensure (h : p.Fits cache lang used) (c : Catalogue) :
    (p.ensure c cache).1.Fits (p.ensure c cache).2 lang true := by
  rcases ensure_cases c cache h with ⟨rfl, heq⟩ | ⟨_, heq⟩
  · rw [heq]
    exact h
  · rw [heq]
    exact ⟨rfl, nofun, fun _ => ⟨_, Cache.lookup_load c cache lang, rfl⟩⟩

theorem keeps_ensure (h : p.Fits cache lang used) (c : Catalogue) :
    cache.Keeps (p.ensure c cache).2 := by
  rcases ensure_cases c cache h with ⟨_, heq⟩ | ⟨_, heq⟩
  · rw [heq]
    exact fun _ _ => id
  · rw [heq]
    exact Cache.keeps_load c cache lang

theorem holds_ensure {keys : List String} (h : p.Fits cache lang used)
    (hcache : cache.Holds c.bindings keys) :
    (p.ensure c cache).2.Holds c.bindings (keys.insert lang) := by
  rcases ensure_cases c cache h with ⟨hused, heq⟩ | ⟨_, heq⟩
  · obtain ⟨result, hresult, _⟩ := h.loaded hused
    rw [heq, List.insert_of_mem (hcache.mem_iff.mpr ⟨result, hresult⟩)]
    exact hcache
  · rw [heq]
    exact hcache.load lang

theorem Fits.status_eq_unloaded_iff (h : p.Fits cache lang used) :
    p.status = .unloaded ↔ used = false := by
  cases used with
  | false => simp [status, h.fresh rfl]
  | true =>
      obtain ⟨result, _, hbackend⟩ := h.loaded rfl
      rw [status, hbackend]
      cases result.bind Handle.backend with
      | ok _ => simp
      | error _ => simp

theorem boundaries_of_unavailable {reason : String} (h : p.status = .unavailable reason) (t : Text) :
    p.boundaries t = [] ∧ p.outline t = {} := by
  have hbackend : p.backend = some (.error reason) := by
    rw [status] at h
    split at h
    · cases h
    · cases h
    · cases h
      assumption
  simp only [boundaries, outline, tree?, hbackend, and_self]

end LazyParser

structure Session.Follows (bindings : List (String × Binding)) (history : History) (s : Session) :
    Prop where
  cache : s.cache.Holds bindings history.asked
  parser : ∀ name, (s.parser name).Fits s.cache (history.language name) (history.used name)

namespace Session

theorem parser_put (s : Session) (name other : String) (p : LazyParser) (cache : Cache) :
    (s.put name p cache).parser other = if other = name then p else s.parser other := by
  by_cases h : other = name
  · simp [put, parser, h]
  · rw [if_neg h, put, parser, List.lookup_cons, beq_eq_false_iff_ne.mpr h]
    simp only [lookup_filter_ne _ h, parser]

theorem follows_nil (bindings : List (String × Binding)) : Follows bindings [] {} where
  cache := ⟨rfl, rfl⟩
  parser name := LazyParser.fits_new {} name

theorem answer_of_parser? (hname : request.parser? = some name) (c : Catalogue) (s : Session) :
    (s.answer c request).2 = s.put name ((s.parser name).ensure c s.cache).1
      ((s.parser name).ensure c s.cache).2 := by
  cases request with
  | load _ => simp [Request.parser?] at hname
  | new _ _ => simp [Request.parser?] at hname
  | status _ => simp [Request.parser?] at hname
  | available _ =>
      cases hname
      rfl
  | boundaries _ _ =>
      cases hname
      rfl
  | outline _ _ =>
      cases hname
      rfl

end Session

namespace History

theorem cons_of_parser? (hname : request.parser? = some name) (modules : Modules) (history : History) :
    asked ((modules, request) :: history) = (asked history).insert (language name history) ∧
      ∀ other, language other ((modules, request) :: history) = language other history ∧
        used other ((modules, request) :: history) = (name == other || used other history) := by
  cases request with
  | load _ => simp [Request.parser?] at hname
  | new _ _ => simp [Request.parser?] at hname
  | status _ => simp [Request.parser?] at hname
  | available _ =>
      cases hname
      exact ⟨rfl, fun other => ⟨rfl, rfl⟩⟩
  | boundaries _ _ =>
      cases hname
      exact ⟨rfl, fun other => ⟨rfl, rfl⟩⟩
  | outline _ _ =>
      cases hname
      exact ⟨rfl, fun other => ⟨rfl, rfl⟩⟩

end History

namespace Session

namespace Follows

theorem load (h : s.Follows bindings history) (modules : Modules) (language : String) :
    (s.answer ⟨bindings, modules⟩ (.load language)).2.Follows bindings
      ((modules, .load language) :: history) where
  cache := Cache.Holds.load (c := ⟨bindings, modules⟩) h.cache language
  parser name := (h.parser name).keeps (Cache.keeps_load ⟨bindings, modules⟩ s.cache language)

theorem new (h : s.Follows bindings history) (modules : Modules) (name language : String) :
    (s.answer ⟨bindings, modules⟩ (.new name language)).2.Follows bindings
      ((modules, .new name language) :: history) where
  cache := h.cache
  parser other := by
    rw [answer, parser_put, History.language, History.used, Request.creates]
    by_cases hother : name = other
    · rw [if_pos hother.symm, beq_iff_eq.mpr hother, if_pos rfl, if_pos rfl]
      exact LazyParser.fits_new s.cache language
    · rw [if_neg (Ne.symm hother), beq_eq_false_iff_ne.mpr hother, if_neg Bool.false_ne_true,
        if_neg Bool.false_ne_true]
      exact h.parser other

theorem use (h : s.Follows bindings history) (hname : request.parser? = some name) (modules : Modules) :
    (s.answer ⟨bindings, modules⟩ request).2.Follows bindings ((modules, request) :: history) := by
  obtain ⟨hasked, hparsers⟩ := History.cons_of_parser? hname modules history
  rw [answer_of_parser? hname]
  constructor
  · rw [hasked]
    exact LazyParser.holds_ensure (c := ⟨bindings, modules⟩) (h.parser name) h.cache
  · intro other
    rw [parser_put, (hparsers other).1, (hparsers other).2]
    by_cases hother : other = name
    · subst hother
      rw [if_pos rfl, beq_self_eq_true, Bool.true_or]
      exact (h.parser other).ensure ⟨bindings, modules⟩
    · rw [if_neg hother, beq_eq_false_iff_ne.mpr (Ne.symm hother), Bool.false_or]
      exact (h.parser other).keeps (LazyParser.keeps_ensure (h.parser name) ⟨bindings, modules⟩)

theorem answer (h : s.Follows bindings history) (modules : Modules) (request : Request) :
    (s.answer ⟨bindings, modules⟩ request).2.Follows bindings ((modules, request) :: history) := by
  cases request with
  | load language => exact h.load modules language
  | new name language => exact h.new modules name language
  | available name => exact h.use rfl modules
  | status name => exact ⟨h.cache, h.parser⟩
  | boundaries name code => exact h.use rfl modules
  | outline name code => exact h.use rfl modules

end Follows

theorem follows_sessionAfter (bindings : List (String × Binding)) (history : History) :
    (sessionAfter bindings history).Follows bindings history := by
  induction history with
  | nil => exact follows_nil bindings
  | cons step before ih => exact ih.answer step.1 step.2

theorem keeps_answer (h : s.Follows bindings history) (modules : Modules) (request : Request) :
    s.cache.Keeps (s.answer ⟨bindings, modules⟩ request).2.cache := by
  cases request with
  | load language => exact Cache.keeps_load _ s.cache language
  | new name language => exact fun _ _ => id
  | available name => exact LazyParser.keeps_ensure (h.parser name) _
  | status name => exact fun _ _ => id
  | boundaries name code => exact LazyParser.keeps_ensure (h.parser name) _
  | outline name code => exact LazyParser.keeps_ensure (h.parser name) _

theorem keeps_sessionAfter (bindings : List (String × Binding)) (more history : History) :
    (sessionAfter bindings history).cache.Keeps (sessionAfter bindings (more ++ history)).cache := by
  induction more with
  | nil => exact fun _ _ => id
  | cons step more ih =>
      intro key result h
      exact keeps_answer (follows_sessionAfter bindings (more ++ history)) step.1 step.2 key result
        (ih key result h)

inductive Answers (s : Session) : Request → Reply → Prop
  | load {language : String} {result : Except String Handle}
      (h : s.cache.known.lookup language = some result) :
      Answers s (.load language) (.status (statusOf result))
  | new (name language : String) : Answers s (.new name language) (.language (s.parser name).language)
  | available (name : String) : Answers s (.available name) (.available (s.parser name).status.isAvailable)
  | status (name : String) : Answers s (.status name) (.status (s.parser name).status)
  | boundaries (name : String) (code : Text) :
      Answers s (.boundaries name code) (.boundaries ((s.parser name).boundaries code))
  | outline (name : String) (code : Text) :
      Answers s (.outline name code) (.outline ((s.parser name).outline code))

theorem answers_answer (c : Catalogue) (s : Session) (request : Request) :
    Answers (s.answer c request).2 request (s.answer c request).1 := by
  have hput (name : String) (p : LazyParser) (cache : Cache) : (s.put name p cache).parser name = p := by
    rw [parser_put, if_pos rfl]
  cases request with
  | load language => exact .load (Cache.lookup_load c s.cache language)
  | new name language =>
      have h := Answers.new (s := (s.answer c (.new name language)).2) name language
      rwa [answer, hput] at h
  | available name =>
      have h := Answers.available (s := (s.answer c (.available name)).2) name
      rwa [answer, loaded, hput] at h
  | status name => exact .status name
  | boundaries name code =>
      have h := Answers.boundaries (s := (s.answer c (.boundaries name code)).2) name code
      rwa [answer, loaded, hput] at h
  | outline name code =>
      have h := Answers.outline (s := (s.answer c (.outline name code)).2) name code
      rwa [answer, loaded, hput] at h

end Session

theorem History.nodup_asked (history : History) : history.asked.Nodup := by
  induction history with
  | nil => exact List.nodup_nil
  | cons step before ih =>
      rw [asked]
      split
      · exact ih
      · exact ih.insert

theorem History.append_of_not_created (more history : History)
    (h : ∀ step ∈ more, step.2.creates name = false) :
    language name (more ++ history) = language name history ∧
      (used name history = true → used name (more ++ history) = true) := by
  induction more with
  | nil => exact ⟨rfl, id⟩
  | cons step more ih =>
      obtain ⟨modules, request⟩ := step
      obtain ⟨hlanguage, hused⟩ := ih fun step hstep => h step (List.mem_cons_of_mem _ hstep)
      have hcreates : request.creates name = false := h _ List.mem_cons_self
      constructor
      · rw [← hlanguage]
        cases request with
        | new other language =>
            rw [List.cons_append, History.language, if_neg]
            simpa [Request.creates] using hcreates
        | load _ => rfl
        | available _ => rfl
        | status _ => rfl
        | boundaries _ _ => rfl
        | outline _ _ => rfl
      · intro h
        rw [List.cons_append, used, hcreates, if_neg Bool.false_ne_true, hused h, Bool.or_true]

namespace Session

structure OnceAndFinal (bindings : List (String × Binding)) (history : History) : Prop where
  answers : ∀ modules request,
    Answers ((sessionAfter bindings history).answer ⟨bindings, modules⟩ request).2 request
      ((sessionAfter bindings history).answer ⟨bindings, modules⟩ request).1
  nodup : history.asked.Nodup
  opened : (sessionAfter bindings history).cache.opened.toList =
    history.asked.reverse.filterMap (moduleOf bindings)
  kept : ∀ more key result, (sessionAfter bindings history).cache.known.lookup key = some result →
    (sessionAfter bindings (more ++ history)).cache.known.lookup key = some result
  unloaded_iff : ∀ name,
    ((sessionAfter bindings history).parser name).status = .unloaded ↔ history.used name = false
  final : ∀ more name, (∀ step ∈ more, step.2.creates name = false) → history.used name = true →
    (sessionAfter bindings (more ++ history)).parser name = (sessionAfter bindings history).parser name
  agree : ∀ more name other, history.language name = History.language other (more ++ history) →
    history.used name = true → History.used other (more ++ history) = true →
      ((sessionAfter bindings history).parser name).status =
        ((sessionAfter bindings (more ++ history)).parser other).status
  unavailable : ∀ name reason,
    ((sessionAfter bindings history).parser name).status = .unavailable reason →
      ∀ t, ((sessionAfter bindings history).parser name).boundaries t = [] ∧
        ((sessionAfter bindings history).parser name).outline t = {}

theorem backend_eq (bindings : List (String × Binding)) {more : History}
    (hlanguage : history.language name = History.language other (more ++ history))
    (hname : history.used name = true) (hother : History.used other (more ++ history) = true) :
    ((sessionAfter bindings history).parser name).backend =
      ((sessionAfter bindings (more ++ history)).parser other).backend := by
  have hbefore := (follows_sessionAfter bindings history).parser name
  have hafter := (follows_sessionAfter bindings (more ++ history)).parser other
  obtain ⟨result, hresult, hbackend⟩ := hbefore.loaded hname
  obtain ⟨result', hresult', hbackend'⟩ := hafter.loaded hother
  have hkept := keeps_sessionAfter bindings more history _ _ hresult
  rw [hlanguage, hresult'] at hkept
  rw [hbackend, hbackend', Option.some.inj hkept]

theorem once_and_final (bindings : List (String × Binding)) (history : History) :
    OnceAndFinal bindings history := by
  have h := follows_sessionAfter bindings history
  constructor
  · exact fun modules request => answers_answer _ _ request
  · exact history.nodup_asked
  · exact h.cache.opened
  · exact fun more key result => keeps_sessionAfter bindings more history key result
  · exact fun name => (h.parser name).status_eq_unloaded_iff
  · intro more name hcreates hused
    obtain ⟨hlanguage, hused'⟩ := History.append_of_not_created more history hcreates
    have hbackend := backend_eq bindings hlanguage.symm hused (hused' hused)
    have hbefore := (h.parser name).language_eq
    have hafter := ((follows_sessionAfter bindings (more ++ history)).parser name).language_eq
    exact LazyParser.eq_of_fields (by rw [hafter, hlanguage, hbefore]) hbackend.symm
  · intro more name other hlanguage hname hother
    rw [LazyParser.status, LazyParser.status, backend_eq bindings hlanguage hname hother]
  · exact fun name reason h t => LazyParser.boundaries_of_unavailable h t

example : ((sessionAfter [("go", ⟨"tree_sitter_go", "language"⟩)]
    [([("tree_sitter_go", [("language", .ok ⟨.ok fun _ => none⟩)])], .available "parser"),
      ([], .available "parser"), ([], .new "parser" "go")]).parser "parser").status =
    .unavailable "tree_sitter_go not installed" := by
  decide

end Session

end Grammar

end Chunkwise
