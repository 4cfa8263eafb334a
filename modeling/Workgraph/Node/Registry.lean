import Workgraph.Fault
import Workgraph.Graph.Name
import Workgraph.Host.Service
/-!
# Registries

What is known under type keys. A key with a provider stands also for what is known under the key
without it.

## Main definitions

- `BuildError`: why a node could not be built
- `Registry`, `Registry.register`, `Registry.resolve`: registering and looking up
-/

namespace Workgraph

/-- Why a node could not be built. -/
inductive BuildError where
  | notFound (typeKey : String)
  | providerNotFound (typeKey provider : String)
  | invalidConfig (nodeKey message : String)
deriving DecidableEq

namespace BuildError

def message : BuildError → String
  | notFound typeKey => "no strategy found for type " ++ typeKey
  | providerNotFound typeKey provider => s!"no provider '{provider}' for type {typeKey}"
  | invalidConfig nodeKey message =>
    s!"invalid configuration for node '{nodeKey}': {message}"

def fault (e : BuildError) : Fault :=
  match e with
  | notFound _ =>
    .advised "NotFound" e.message "agentweave::strategies::not_found"
      "Register a strategy for this type key, or use StrategyRegistry::with_builtins()."
  | providerNotFound _ _ =>
    .advised "ProviderNotFound" e.message "agentweave::strategies::provider_not_found"
      "Register the provider in the ProviderRegistry."
  | invalidConfig _ _ =>
    .coded "InvalidConfig" e.message "agentweave::strategies::invalid_config"

/-- Whether nothing is there that could build the node. -/
def isMissing : BuildError → Bool
  | notFound _ => true
  | providerNotFound _ _ => true
  | invalidConfig _ _ => false

/-- The error for a service that a node of a given type needs. -/
def ofProvider (typeKey : TypeKey) : ProviderError → BuildError
  | .notFound _ name => providerNotFound typeKey.text name
  | e => invalidConfig typeKey.text e.message

end BuildError

/-- What is known under type keys; no key occurs twice. -/
abbrev Registry (α : Type) := List (TypeKey × α)

namespace Registry

variable {α : Type}

/-- What is known under exactly the given key. -/
def get? (r : Registry α) (key : TypeKey) : Option α := (r.find? (·.1 == key)).map (·.2)

/-- Makes something known under a key, in place of what was known under it. -/
def register (r : Registry α) (key : TypeKey) (a : α) : Registry α :=
  r.filter (·.1 != key) ++ [(key, a)]

/-- Makes several things known, one after the other. -/
def registerAll (r : Registry α) (entries : List (TypeKey × α)) : Registry α :=
  entries.foldl (fun r e => r.register e.1 e.2) r

/-- What is known under a key, or else under the key without its provider. -/
def resolve (r : Registry α) (key : TypeKey) : Except BuildError α :=
  match (r.get? key).or (key.generic?.bind r.get?) with
  | some a => .ok a
  | none => .error (.notFound key.text)

end Registry

end Workgraph
