import WasmHost.Proofs.Output

namespace WasmHost

namespace HostM

variable {α β : Type} {x : HostM α} {f : α → HostM β}

/-- The call as a computation leaves it, whether it answered or stopped. -/
def leaves (x : HostM α) (c : Call) : Call :=
  match x c with
  | .ok _ c' => c'
  | .error _ c' => c'

/-- A computation sends nothing, however it ends. -/
def Silent (x : HostM α) : Prop := ∀ c, (x.leaves c).host.streams = c.host.streams

theorem leaves_bind (x : HostM α) (f : α → HostM β) (c : Call) :
    (x >>= f).leaves c = match x c with
      | .ok a c' => (f a).leaves c'
      | .error _ c' => c' := by
  simp only [leaves, bind, EStateM.bind]
  cases x c <;> rfl

theorem Silent.bind (hx : x.Silent) (hf : ∀ a, (f a).Silent) : (x >>= f).Silent := by
  intro c
  have hc := hx c
  rw [leaves] at hc
  rw [leaves_bind]
  cases h : x c with
  | ok a c' =>
    rw [h] at hc
    exact (hf a c').trans hc
  | error stop c' =>
    rw [h] at hc
    exact hc

theorem silent_of_leaves_eq (h : ∀ c, x.leaves c = c) : x.Silent := by
  intro c
  rw [h]

theorem silent_pure (a : α) : (pure a : HostM α).Silent := silent_of_leaves_eq fun _ => rfl

theorem silent_throw (stop : Stop) : (throw stop : HostM α).Silent :=
  silent_of_leaves_eq fun _ => rfl

theorem silent_get : (get : HostM Call).Silent := silent_of_leaves_eq fun _ => rfl

theorem silent_modify {g : Call → Call} (h : ∀ c, (g c).host.streams = c.host.streams) :
    (modify g : HostM Unit).Silent := h

theorem silent_liftSlot (r : Except SlotError α) : (liftSlot r).Silent := by
  cases r with
  | ok a => exact silent_pure a
  | error e => exact silent_throw _

theorem silent_int32 (params : List Value) (index : Nat) : (int32 params index).Silent :=
  silent_liftSlot _

theorem silent_int64 (params : List Value) (index : Nat) : (int64 params index).Silent :=
  silent_liftSlot _

theorem silent_word (params : List Value) (index : Nat) : (word params index).Silent :=
  (silent_int32 params index).bind fun _ => silent_pure _

/-- A parameter of another kind ends the function; what follows has to be silent only for a word
that was there. -/
theorem silent_word_bind {params : List Value} {index : Nat} {f : UInt32 → HostM β}
    (h : ∀ w, params[index]? = some (.i32 w) → (f w).Silent) :
    (word params index >>= f).Silent := by
  by_cases hw : ∃ w, params[index]? = some (.i32 w)
  · obtain ⟨w, hw⟩ := hw
    intro c
    rw [leaves_bind, word_eq_ok hw c]
    exact h w hw c
  · have hnone : ∀ w, params[index]? ≠ some (.i32 w) := fun w hp => hw ⟨w, hp⟩
    intro c
    rw [leaves_bind, word_eq_error hnone c]

theorem silent_setResult (index : Nat) (value : Value) : (setResult index value).Silent :=
  silent_get.bind fun _ => (silent_liftSlot _).bind fun _ => silent_modify fun _ => rfl

theorem silent_memory : memory.Silent := by
  refine silent_get.bind fun c => ?_
  cases c.memory with
  | some m => exact silent_pure m
  | none => exact silent_throw _

theorem silent_setMemory (m : Memory) : (setMemory m).Silent := silent_modify fun _ => rfl

theorem silent_context : context.Silent := silent_get.bind fun _ => silent_pure _

end HostM

/-- A host function sends nothing, whatever it is called with and however it ends. -/
def HostFunc.Silent (f : HostFunc) : Prop :=
  ∀ context args memory host, (f.call context args memory host).host.streams = host.streams

theorem HostFunc.call_host (f : HostFunc) (context : Context) (args : List Value)
    (memory : Option Memory) (host : Host) :
    (f.call context args memory host).host =
      ((f.run args).leaves
        ⟨context, memory, List.replicate f.signature.results.length .funcRef, host⟩).host := by
  rw [call, HostM.leaves]
  cases f.run args ⟨context, memory, List.replicate f.signature.results.length .funcRef, host⟩ <;>
    rfl

theorem HostFunc.silent_of_run {f : HostFunc} (h : ∀ args, (f.run args).Silent) : f.Silent := by
  intro context args memory host
  rw [call_host, h]

namespace Wasi

open HostM

theorem silent_commit (r : Except OutOfBounds Memory) : (commit r).Silent := by
  cases r with
  | ok m => exact (silent_setMemory m).bind fun _ => silent_pure _
  | error e => exact silent_pure _

theorem silent_commitPart (r : Errno × Memory) : (commitPart r).Silent :=
  (silent_setMemory r.2).bind fun _ => silent_pure _

theorem silent_readRealtime : readRealtime.Silent := fun _ => rfl

theorem silent_readMonotonic : readMonotonic.Silent := fun _ => rfl

theorem silent_writeTime (out : UInt32) (nanos : UInt64) : (writeTime out nanos).Silent :=
  silent_memory.bind fun _ => silent_commit _

theorem silent_clockTimeGet (params : List Value) : (clockTimeGet params).Silent := by
  refine (silent_int32 params 0).bind fun id => (silent_int64 params 1).bind fun _ =>
    (silent_word params 2).bind fun out => ?_
  cases ClockId.ofInt32? id with
  | none => exact silent_pure _
  | some clock =>
    cases clock with
    | realtime => exact silent_readRealtime.bind fun _ => silent_writeTime _ _
    | monotonic => exact silent_readMonotonic.bind fun _ => silent_writeTime _ _
    | processCpu | threadCpu => exact silent_pure _

theorem silent_clockResGet (params : List Value) : (clockResGet params).Silent := by
  refine (silent_int32 params 0).bind fun id => (silent_word params 1).bind fun out => ?_
  cases ClockId.ofInt32? id with
  | none => exact silent_pure _
  | some clock =>
    cases clock with
    | realtime | monotonic => exact silent_writeTime _ _
    | processCpu | threadCpu => exact silent_pure _

theorem silent_withStrings (strings : List String) {next : List Bytes → HostM Errno}
    (h : ∀ s, (next s).Silent) :
    (withStrings strings next).Silent := by
  unfold withStrings
  cases allTerminated? strings with
  | some strings => exact h strings
  | none => exact silent_pure _

theorem silent_stringSizes (params : List Value) (strings : List Bytes) :
    (stringSizes params strings).Silent := by
  refine (silent_word params 0).bind fun _ => (silent_word params 1).bind fun _ => ?_
  split
  · exact silent_memory.bind fun _ => silent_commitPart _
  · exact silent_pure _

theorem silent_stringsGet (params : List Value) (strings : List Bytes) :
    (stringsGet params strings).Silent :=
  (silent_word params 0).bind fun _ => (silent_word params 1).bind fun _ =>
    silent_memory.bind fun _ => silent_commitPart _

theorem silent_randomGet (params : List Value) : (randomGet params).Silent := by
  refine (silent_word params 0).bind fun buf => (silent_word params 1).bind fun len =>
    silent_memory.bind fun m => ?_
  cases m.check buf len.toUInt64 with
  | error e => exact silent_pure _
  | ok u => exact fun c => silent_commit _ _

theorem silent_toHostFunc {syscall : Syscall} (params : List Kind)
    (h : ∀ args, (syscall args).Silent) :
    (syscall.toHostFunc params).Silent :=
  HostFunc.silent_of_run fun args => (h args).bind fun _ => silent_setResult _ _

theorem silent_ofList (strings : Context → List String)
    {next : List Value → List Bytes → HostM Errno} (h : ∀ args s, (next args s).Silent)
    (args : List Value) :
    (do withStrings (strings (← HostM.context)) (next args) : HostM Errno).Silent :=
  silent_context.bind fun _ => silent_withStrings _ (h args)

theorem silent_of_mem_catalogue :
    ∀ entry ∈ catalogue, entry.1 ≠ "fd_write" → entry.2.Silent := by
  simp only [catalogue, List.forall_mem_cons]
  refine ⟨fun _ => ?_, fun _ => ?_, fun _ => ?_, fun _ => ?_, fun _ => ?_, fun _ => ?_, fun _ =>
    ?_, fun h => ?_,
    fun _ => ?_, fun _ => ?_, by simp⟩
  · exact HostFunc.silent_of_run fun args => (silent_int32 args 0).bind fun _ => silent_throw _
  · exact silent_toHostFunc _ silent_clockTimeGet
  · exact silent_toHostFunc _ silent_clockResGet
  · exact silent_toHostFunc _ (silent_ofList Context.args silent_stringSizes)
  · exact silent_toHostFunc _ (silent_ofList Context.args silent_stringsGet)
  · exact silent_toHostFunc _ (silent_ofList (fun c => envStrings c.env) silent_stringSizes)
  · exact silent_toHostFunc _ (silent_ofList (fun c => envStrings c.env) silent_stringsGet)
  · exact absurd rfl h
  · exact silent_toHostFunc _ silent_randomGet
  · exact silent_toHostFunc _ fun _ => silent_pure _

/-- Only one function of the table sends anything. -/
theorem silent_of_table {name : ImportName} {f : HostFunc} (h : table.get? name = some f)
    (hne : name ≠ writeName) :
    f.Silent := by
  have hentries : table.entries = entries := rfl
  obtain ⟨before, after, hsplit, _⟩ := List.lookup_eq_some_iff.mp h
  have hmem : (name, f) ∈ entries := by
    rw [← hentries, hsplit]
    simp
  obtain ⟨entry, hentry, heq⟩ := List.mem_map.mp hmem
  cases heq
  apply silent_of_mem_catalogue entry hentry
  intro hname
  rw [hname] at hne
  exact hne rfl

/-- The bytes that a call gathers for the buffer of a name: the descriptor has to be routed to it,
and all that the records name has to lie in a memory that the caller shows. -/
def gathered? (context : Context) (name : String) (args : List Value) (memory : Option Memory) :
    Option Bytes :=
  match args, memory with
  | .i32 fd :: .i32 iovs :: .i32 count :: .i32 _ :: _, some m =>
    if context.output? fd = some (.capture name) then (gather m iovs count.toNat).toOption else none
  | _, _ => none

section

variable {context : Context} {args : List Value} {fd iovs count out : UInt32}
  {memory : Option Memory} {host : Host} {sink : Sink}

theorem WriteArgs.exists_rest (h : WriteArgs args fd iovs count out) :
    ∃ rest, args = .i32 fd :: .i32 iovs :: .i32 count :: .i32 out :: rest := by
  obtain ⟨h0, h1, h2, h3⟩ := h
  match args with
  | a :: b :: c :: d :: rest =>
    simp only [List.getElem?_cons_zero, List.getElem?_cons_succ, Option.some.injEq] at h0 h1 h2 h3
    exact ⟨rest, by rw [h0, h1, h2, h3]⟩

theorem gathered?_of_not_writeArgs (name : String) (memory : Option Memory)
    (h : ∀ fd iovs count out, ¬ WriteArgs args fd iovs count out) :
    gathered? context name args memory = none := by
  unfold gathered?
  split
  · exact absurd ⟨rfl, rfl, rfl, rfl⟩ (h _ _ _ _)
  · rfl

theorem silent_fdWrite (h : ∀ fd iovs count out, ¬ WriteArgs args fd iovs count out) :
    (fdWrite args).Silent :=
  silent_word_bind fun fd h0 => silent_word_bind fun iovs h1 => silent_word_bind fun count h2 =>
    silent_word_bind fun out h3 => absurd ⟨h0, h1, h2, h3⟩ (h fd iovs count out)

theorem call_write_of_no_memory (h : WriteArgs args fd iovs count out) (context : Context)
    (host : Host) :
    (writeFunc.call context args none host).host = host := by
  rw [HostFunc.call_host]
  change ((fdWrite args >>= fun errno => setResult 0 (.i32 errno.code)).leaves _).host = host
  rw [leaves_bind, fdWrite_eq h]
  cases context.output? fd with
  | none => rfl
  | some sink => rfl

theorem contents_call_write_of_writeArgs (h : WriteArgs args fd iovs count out) (context : Context)
    (m : Memory) (host : Host) (name : String) :
    (writeFunc.call context args (some m) host).host.streams.contents name =
      host.streams.contents name ++ (if context.output? fd = some (.capture name) then
        (gather m iovs count.toNat).toOption else none).getD [] := by
  cases hs : context.output? fd with
  | none =>
    rw [call_write_of_badf h hs]
    simp
  | some sink =>
    cases hg : gather m iovs count.toNat with
    | error e =>
      rw [call_write_of_fault h hs hg]
      simp [Except.toOption]
    | ok bytes =>
      have hcontents := host.streams.contents_write sink fd bytes name
      have hlog : (if some sink =
        some (.capture name) then (Except.ok bytes : Except OutOfBounds Bytes).toOption
          else none).getD [] = if sink = .capture name then bytes else [] := by
        by_cases hsink : sink = .capture name <;> simp [hsink, Except.toOption]
      rw [hlog, ← hcontents]
      cases hw : host.streams.write sink fd bytes with
      | mk taken streams =>
        cases taken with
        | true => rw [call_write_of_gather h hs hg hw]
        | false => rw [call_write_of_refused h hs hg hw]

/-- A call adds to each buffer just what it gathered for it. -/
theorem contents_call_write (context : Context) (args : List Value) (memory : Option Memory)
    (host : Host) (name : String) :
    (writeFunc.call context args memory host).host.streams.contents name =
      host.streams.contents name ++ (gathered? context name args memory).getD [] := by
  by_cases h : ∃ fd iovs count out, WriteArgs args fd iovs count out
  · obtain ⟨fd, iovs, count, out, h⟩ := h
    cases memory with
    | none =>
      obtain ⟨rest, rfl⟩ := h.exists_rest
      rw [call_write_of_no_memory h]
      simp [gathered?]
    | some m =>
      rw [contents_call_write_of_writeArgs h]
      obtain ⟨rest, rfl⟩ := h.exists_rest
      rfl
  -- Without four words to go by, the function stops before it looks at anything else.
  · have hnot : ∀ fd iovs count out, ¬ WriteArgs args fd iovs count out := by
      intro fd iovs count out hargs
      exact h ⟨fd, iovs, count, out, hargs⟩
    have hsilent : (writeFunc.run args).Silent :=
      (silent_fdWrite hnot).bind fun _ => silent_setResult _ _
    rw [gathered?_of_not_writeArgs name memory hnot, HostFunc.call_host, Streams.contents,
      Streams.captured?, hsilent]
    simp [Streams.contents, Streams.captured?]

end

end Wasi

end WasmHost
