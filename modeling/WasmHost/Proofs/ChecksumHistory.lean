import Mathlib.Logic.Function.Basic
import WasmHost.Proofs.RunningSum

namespace WasmHost.Checksum

/-- Something done with one of several running checksums, which are told apart by numbers. -/
inductive Operation
  | update (slot : Nat) (bytes : Bytes)
  | write (slot : Nat) (pieces : List Bytes)
  | flush (slot : Nat)
  | finish (slot : Nat)
  | reset (slot : Nat)
  | copy (source target : Nat)
  | resume (slot : Nat)

/-- Writing goes piece by piece. Resuming puts in the place of a state what its finished checksum
stands for. -/
def perform (sums : Nat → Checksum) : Operation → Nat → Checksum
  | .update slot bytes => Function.update sums slot ((sums slot).update bytes)
  | .write slot pieces =>
    Function.update sums slot (pieces.foldl (fun s piece => (s.write piece).2) (sums slot))
  | .flush _ | .finish _ => sums
  | .reset slot => Function.update sums slot start
  | .copy source target => Function.update sums target (sums source)
  | .resume slot => Function.update sums slot (resume (sums slot).finish)

def performAll (ops : List Operation) : Nat → Checksum := ops.foldl perform fun _ => start

/-- The bytes that each checksum has been fed since it was last reset. A copy has been fed what its
source has. -/
def feed (fed : Nat → Bytes) : Operation → Nat → Bytes
  | .update slot bytes => Function.update fed slot (fed slot ++ bytes)
  | .write slot pieces => Function.update fed slot (fed slot ++ pieces.flatten)
  | .flush _ | .finish _ | .resume _ => fed
  | .reset slot => Function.update fed slot []
  | .copy source target => Function.update fed target (fed source)

def feedAll (ops : List Operation) : Nat → Bytes := ops.foldl feed fun _ => []

/-- A state that stands for these bytes. -/
def Sums (s : Checksum) (bytes : Bytes) : Prop := s.Represents (Tally.start.addAll bytes)

variable {s : Checksum} {bytes : Bytes}

theorem sums_start : start.Sums [] := represents_start

theorem Sums.update (h : s.Sums bytes) (more : Bytes) : (s.update more).Sums (bytes ++ more) := by
  rw [Sums, Tally.addAll_append]
  exact Represents.update h more

theorem Sums.write (h : s.Sums bytes) (pieces : List Bytes) :
    (pieces.foldl (fun s piece => (s.write piece).2) s).Sums (bytes ++ pieces.flatten) := by
  induction pieces generalizing s bytes with
  | nil => rwa [List.flatten_nil, List.append_nil]
  | cons piece rest ih =>
    rw [List.foldl_cons, List.flatten_cons, ← List.append_assoc]
    exact ih (h.update piece)

theorem Sums.resume (h : s.Sums bytes) : (resume s.finish).Sums bytes := by
  rwa [(Represents.reduced h).resume_finish]

theorem Sums.eq_updateEach (h : s.Sums bytes) : s = start.updateEach bytes :=
  h.unique (represents_start.updateEach bytes)

section

variable {sums : Nat → Checksum} {fed : Nat → Bytes}

theorem sums_update (h : ∀ slot, (sums slot).Sums (fed slot)) {target : Nat} (hs : s.Sums bytes)
    (slot : Nat) :
    (Function.update sums target s slot).Sums (Function.update fed target bytes slot) := by
  by_cases ht : slot = target
  · rw [ht, Function.update_self, Function.update_self]
    exact hs
  · rw [Function.update_of_ne ht, Function.update_of_ne ht]
    exact h slot

/-- Every operation leaves states that stand for what has been fed. -/
theorem sums_perform (h : ∀ slot, (sums slot).Sums (fed slot)) (op : Operation) (slot : Nat) :
    (perform sums op slot).Sums (feed fed op slot) := by
  cases op with
  | update target bytes => exact sums_update h ((h target).update bytes) slot
  | write target pieces => exact sums_update h ((h target).write pieces) slot
  | flush target => exact h slot
  | finish target => exact h slot
  | reset target => exact sums_update h sums_start slot
  | copy source target => exact sums_update h (h source) slot
  | resume target =>
    have hfed : Function.update fed target (fed target) = fed := Function.update_eq_self target fed
    rw [feed, ← hfed]
    exact sums_update h (h target).resume slot

theorem sums_performAll (ops : List Operation) (slot : Nat) :
    (performAll ops slot).Sums (feedAll ops slot) := by
  suffices ∀ (sums : Nat → Checksum) (fed : Nat → Bytes), (∀ slot, (sums slot).Sums (fed slot)) →
      ∀ slot, (ops.foldl perform sums slot).Sums (ops.foldl feed fed slot) from
    this _ _ (fun _ => sums_start) slot
  induction ops with
  | nil => exact fun sums fed h => h
  | cons op rest ih => exact fun sums fed h => ih _ _ (sums_perform h op)

end

theorem Reduced.finish_inj {s' : Checksum} (h : s.Reduced) (h' : s'.Reduced) :
    s = s' ↔ s.finish = s'.finish := by
  constructor
  · exact fun heq => heq ▸ rfl
  · intro hfinish
    rw [← h.resume_finish, hfinish, h'.resume_finish]

/-- However bytes were split, states copied, suspended and resumed: a checksum is that of the bytes
fed since the last reset, summed one at a time. Its sums are reduced, it is resumed as it was, and
it is told from others by its word. -/
theorem history_exact (ops : List Operation) (slot : Nat) :
    let s := performAll ops slot
    s.finish = (start.updateEach (feedAll ops slot)).finish ∧
    (s.a < modulus ∧ s.b < modulus) ∧
    resume s.finish = s ∧
    ∀ ops' slot',
      (s = performAll ops' slot' ↔ s.finish = (performAll ops' slot').finish) ∧
      (feedAll ops slot = feedAll ops' slot' → s = performAll ops' slot') := by
  intro s
  have hs : s.Sums (feedAll ops slot) := sums_performAll ops slot
  have hreduced : s.Reduced := Represents.reduced hs
  refine ⟨?_, ⟨hreduced.a, hreduced.b⟩, hreduced.resume_finish, ?_⟩
  · rw [← hs.eq_updateEach]
  · intro ops' slot'
    have hs' := sums_performAll ops' slot'
    refine ⟨hreduced.finish_inj (Represents.reduced hs'), fun hfed => ?_⟩
    rw [← hfed] at hs'
    exact hs.unique hs'

end WasmHost.Checksum
