/-! # Tables

Every polled participant belongs to one of three tables. The table says what is
polled of it; the `rpc` table provides the reference that all others are held against.
-/
namespace FleetHealth

inductive Table where
  /-- Trusted public endpoints; one of them becomes the reference. -/
  | rpc
  /-- Full nodes, with JSON-RPC and metrics. -/
  | node
  /-- Validators, with metrics only. -/
  | validator
deriving DecidableEq, Repr

namespace Table

/-- All tables in polling order, the reference first. -/
def all : List Table := [.rpc, .node, .validator]

def name : Table → String
  | .rpc => "rpc"
  | .node => "node"
  | .validator => "validator"

instance : ToString Table := ⟨name⟩

def usesRpc : Table → Bool
  | .rpc | .node => true
  | .validator => false

def usesMetrics : Table → Bool
  | .rpc => false
  | .node | .validator => true

def isReference : Table → Bool
  | .rpc => true
  | .node | .validator => false

end Table

structure PerTable (α : Type) where
  rpc : α
  node : α
  validator : α
deriving DecidableEq, Repr

namespace PerTable

variable {α β : Type}

def const (a : α) : PerTable α := ⟨a, a, a⟩

def get (p : PerTable α) : Table → α
  | .rpc => p.rpc
  | .node => p.node
  | .validator => p.validator

def set (p : PerTable α) (t : Table) (a : α) : PerTable α :=
  match t with
  | .rpc => { p with rpc := a }
  | .node => { p with node := a }
  | .validator => { p with validator := a }

def build (f : Table → α) : PerTable α := ⟨f .rpc, f .node, f .validator⟩

theorem get_set (p : PerTable α) (t u : Table) (a : α) :
    (p.set t a).get u = if t = u then a else p.get u := by
  cases t <;> cases u <;> rfl

theorem get_build (f : Table → α) (t : Table) : (build f).get t = f t := by
  cases t <;> rfl

end PerTable

abbrev TableSet := PerTable Bool

def TableSet.toList (s : TableSet) : List Table := Table.all.filter (PerTable.get s ·)

def TableSet.ofList (tables : List Table) : TableSet := PerTable.build (· ∈ tables)

end FleetHealth
