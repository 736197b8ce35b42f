/-!
# Ordered sets

A finite set that remembers the order in which its members first arrived.

* `OrderedSet.insert` adds a member at the end unless it is there already.
* `OrderedSet.promote` puts a member first and keeps the others in their order.
* `OrderedSet.agree` compares two sets as sets.
-/

namespace WorkflowFile

/-- Distinct members in the order of their first arrival. -/
structure OrderedSet (α : Type) where
  /-- The members in order. -/
  members : List α
  /-- No member occurs twice. -/
  distinct : members.Nodup
  deriving DecidableEq

namespace OrderedSet

variable {α : Type} [DecidableEq α]

/-- The set without members. -/
def empty : OrderedSet α := ⟨[], by simp⟩

instance : EmptyCollection (OrderedSet α) := ⟨empty⟩

instance : Inhabited (OrderedSet α) := ⟨empty⟩

/-- Whether there is no member. -/
def isEmpty (s : OrderedSet α) : Bool := s.members.isEmpty

/-- Adds a member at the end, or nothing if it is present. -/
def insert (s : OrderedSet α) (a : α) : OrderedSet α :=
  if h : a ∈ s.members then s
  else ⟨s.members ++ [a], by
    refine List.nodup_append.2 ⟨s.distinct, by simp, ?_⟩
    intro x hx y hy
    -- the only new member is `a`, which is not among the old ones
    rw [List.mem_singleton.1 hy]
    exact fun e => h (e ▸ hx)⟩

/-- The set that adding the members one after the other gives. -/
def ofList (as : List α) : OrderedSet α := as.foldl insert empty

/-- The set with `a` first, followed by its other members in their order. -/
def promote (s : OrderedSet α) (a : α) : OrderedSet α :=
  ⟨a :: s.members.filter (· ≠ a), List.nodup_cons.2
    ⟨by simp, s.distinct.sublist List.filter_sublist⟩⟩

/-- Whether two sets have the same members, in any order. -/
def agree (s t : OrderedSet α) : Bool :=
  s.members.length == t.members.length && s.members.all (· ∈ t.members)

end OrderedSet

end WorkflowFile
