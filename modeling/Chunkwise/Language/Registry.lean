import Chunkwise.Fault
import Chunkwise.Language.Name

namespace Chunkwise

structure Registry (π : Type) where
  entries : List (String × π) := []
  fallback : π

namespace Registry

variable {π : Type}

def empty (fallback : π) : Registry π :=
  { fallback }

def register (r : Registry π) (language : String) (parser : π) : Registry π :=
  let key := Language.canonical language
  { r with entries := (key, parser) :: r.entries.filter (·.1 != key) }

def unregister (r : Registry π) (language : String) : Registry π :=
  let key := Language.canonical language
  { r with entries := r.entries.filter (·.1 != key) }

def registered? (r : Registry π) (language : String) : Option π :=
  r.entries.lookup (Language.canonical language)

def has (r : Registry π) (language : String) : Bool :=
  (r.registered? language).isSome

def get (r : Registry π) (check : π → Except Fault Bool) (language : String) : π :=
  match r.registered? language with
  | none => r.fallback
  | some parser =>
      match check parser with
      | .ok true => parser
      | _ => r.fallback

def languages (r : Registry π) : List String :=
  (r.entries.map (·.1)).mergeSort fun a b => a ≤ b

inductive Request (π : Type) where
  | register (language : String) (parser : π)
  | unregister (language : String)
  | has (language : String)
  | get (language : String) (check : π → Except Fault Bool)
  | languages

inductive Reply (π : Type) where
  | done
  | has (b : Bool)
  | parser (p : π)
  | languages (names : List String)

def answer (r : Registry π) : Request π → Reply π × Registry π
  | .register language parser => (.done, r.register language parser)
  | .unregister language => (.done, r.unregister language)
  | .has language => (.has (r.has language), r)
  | .get language check => (.parser (r.get check language), r)
  | .languages => (.languages r.languages, r)

end Registry

end Chunkwise
