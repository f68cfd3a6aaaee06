import CanonicalMarkdown.View

namespace CanonicalMarkdown

abbrev DispatchTable := Kind → Option Rule

structure Provider where
  priority : Int
  /-- Registrations in order; a kind may be registered again. -/
  rules : List (Kind × Rule)

structure Holder where
  rule : Rule
  priority : Int
  provider : Nat

structure Contest where
  holders : Kind → Option Holder := fun _ => none
  conflict : Option RenderError := none

namespace Contest

def assign (contest : Contest) (kind : Kind) (holder : Holder) : Contest :=
  let holders (other : Kind) := if other = kind then some holder else contest.holders other
  { contest with holders }

def report (contest : Contest) (conflict : RenderError) : Contest :=
  { contest with conflict := contest.conflict.or (some conflict) }

/-- Enters a rule for a kind. A tie between two providers is reported; otherwise the lesser priority
    holds the kind, and within one provider the later rule. -/
def enter (contest : Contest) (kind : Kind) (incoming : Holder) : Contest :=
  match contest.holders kind with
  | none => contest.assign kind incoming
  | some existing =>
    if existing.priority = incoming.priority ∧ existing.provider ≠ incoming.provider then
      contest.report (.ambiguousRegistration kind incoming.priority)
    else if existing.priority < incoming.priority then contest
    else contest.assign kind incoming

def enterAll (contest : Contest) (provider : Provider) (number : Nat) : Contest :=
  provider.rules.foldl
    (fun contest entry => contest.enter entry.1 ⟨entry.2, provider.priority, number⟩) contest

def ofProviders (providers : List Provider) : Contest :=
  let ranked := providers.mergeSort fun left right => left.priority ≤ right.priority
  ranked.zipIdx.foldl (fun contest entry => contest.enterAll entry.1 entry.2) {}

end Contest

def DispatchTable.ofProviders (providers : List Provider) : Except RenderError DispatchTable :=
  let contest := Contest.ofProviders providers
  match contest.conflict with
  | some conflict => .error conflict
  | none => .ok fun kind => (contest.holders kind).map (·.rule)

def DispatchTable.kinds (table : DispatchTable) : List Kind :=
  Kind.all.filter fun kind => (table kind).isSome

end CanonicalMarkdown
