import WasmHost.Proofs.BuildOrder

namespace WasmHost

/-- The kind of a name. -/
def Kind.ofName? : List Char → Option Kind
  | ['i', '3', '2'] => some .i32
  | ['i', '6', '4'] => some .i64
  | ['f', '3', '2'] => some .f32
  | ['f', '6', '4'] => some .f64
  | _ => none

theorem Kind.ofName?_eq_some_iff {name : List Char} {kind : Kind} :
    ofName? name = some kind ↔ name = kind.name.toList := by
  constructor
  · intro h
    unfold ofName? at h
    split at h <;> cases h <;> rfl
  · intro h
    rw [h]
    cases kind <;> rfl

/-- Names are of one length, so a name is read without looking for its end, and no name is taken for
the end of a list. -/
theorem Kind.exists_toList_name (kind : Kind) :
    ∃ a b c, kind.name.toList = [a, b, c] ∧ a ≠ ')' := by
  cases kind <;> exact ⟨_, _, _, rfl, by decide⟩

namespace Signature

/-- Reads the names of one kind or more, up to a closing parenthesis. -/
def readSeparated : List Char → Option (List Kind × List Char)
  | a :: b :: c :: ')' :: rest => do
    let kind ← Kind.ofName? [a, b, c]
    return ([kind], rest)
  | a :: b :: c :: ',' :: ' ' :: rest => do
    let kind ← Kind.ofName? [a, b, c]
    let (kinds, rest) ← readSeparated rest
    return (kind :: kinds, rest)
  | _ => none

/-- Reads kinds in parentheses. -/
def readParenthesized : List Char → Option (List Kind × List Char)
  | '(' :: ')' :: rest => some ([], rest)
  | '(' :: rest => readSeparated rest
  | _ => none

/-- The signature that a text is the written form of. -/
def ofText? (text : String) : Option Signature := do
  let (params, rest) ← readParenthesized text.toList
  match rest with
  | ' ' :: '-' :: '>' :: ' ' :: rest =>
    match readParenthesized rest with
    | some (results, []) => some ⟨params, results⟩
    | _ => none
  | _ => none

theorem separated_cons_cons (kind kind' : Kind) (kinds : List Kind) :
    separated (kind :: kind' :: kinds) =
      kind.name.toList ++ ',' :: ' ' :: separated (kind' :: kinds) := rfl

theorem readSeparated_separated (kind : Kind) (kinds : List Kind) (rest : List Char) :
    readSeparated (separated (kind :: kinds) ++ ')' :: rest) = some (kind :: kinds, rest) := by
  induction kinds generalizing kind with
  | nil =>
    have hname : Kind.ofName? kind.name.toList = some kind := Kind.ofName?_eq_some_iff.mpr rfl
    obtain ⟨a, b, c, habc, _⟩ := kind.exists_toList_name
    rw [habc] at hname
    simp [separated, habc, readSeparated, hname]
  | cons kind' kinds ih =>
    have hname : Kind.ofName? kind.name.toList = some kind := Kind.ofName?_eq_some_iff.mpr rfl
    obtain ⟨a, b, c, habc, _⟩ := kind.exists_toList_name
    rw [habc] at hname
    simp [separated_cons_cons, habc, readSeparated, hname, ih]

theorem eq_of_readSeparated {text rest : List Char} {kinds : List Kind}
    (h : readSeparated text = some (kinds, rest)) :
    kinds ≠ [] ∧ text = separated kinds ++ ')' :: rest := by
  fun_induction readSeparated text generalizing kinds rest with
  | case1 a b c later =>
    simp only [Option.bind_eq_bind, Option.bind_eq_some_iff] at h
    obtain ⟨kind, hname, he⟩ := h
    cases he
    rw [Kind.ofName?_eq_some_iff] at hname
    exact ⟨List.cons_ne_nil _ _, by simp [separated, ← hname]⟩
  | case2 a b c later ih =>
    simp only [Option.bind_eq_bind, Option.bind_eq_some_iff] at h
    obtain ⟨kind, hname, ⟨others, rest'⟩, hread, he⟩ := h
    cases he
    rw [Kind.ofName?_eq_some_iff] at hname
    obtain ⟨hne, rfl⟩ := ih hread
    obtain ⟨kind', kinds', rfl⟩ := List.exists_cons_of_ne_nil hne
    exact ⟨List.cons_ne_nil _ _, by simp [separated_cons_cons, ← hname]⟩
  | case3 => cases h

theorem readParenthesized_eq_some_iff {text rest : List Char} {kinds : List Kind} :
    readParenthesized text = some (kinds, rest) ↔ text = parenthesized kinds ++ rest := by
  constructor
  · intro h
    unfold readParenthesized at h
    split at h
    · cases h
      rfl
    · obtain ⟨_, rfl⟩ := eq_of_readSeparated h
      simp [parenthesized]
    · cases h
  · intro h
    rw [h]
    cases kinds with
    | nil => rfl
    | cons kind kinds =>
      have hread := readSeparated_separated kind kinds rest
      obtain ⟨a, b, c, habc, hne⟩ := kind.exists_toList_name
      obtain ⟨later, hlater⟩ : ∃ later, separated (kind :: kinds) = a :: later := by
        cases kinds <;> simp [separated, habc]
      rw [hlater] at hread
      simpa [parenthesized, hlater, readParenthesized, hne] using hread

/-- A text is read as a signature exactly when it is the written form of the signature. -/
theorem ofText?_eq_some_iff {t : String} {s : Signature} : ofText? t = some s ↔ t = s.text := by
  have hread (kinds : List Kind) (rest : List Char) :
      readParenthesized (parenthesized kinds ++ rest) = some (kinds, rest) :=
        readParenthesized_eq_some_iff.mpr rfl
  constructor
  · intro h
    simp only [ofText?, Option.bind_eq_bind, Option.bind_eq_some_iff] at h
    obtain ⟨⟨params, rest⟩, hparams, h⟩ := h
    rw [readParenthesized_eq_some_iff] at hparams
    split at h
    · split at h
      · rename_i later hrest _ results hresults
        cases h
        obtain rfl : rest = ' ' :: '-' :: '>' :: ' ' :: later := hrest
        rw [readParenthesized_eq_some_iff, List.append_nil] at hresults
        rw [← String.ofList_toList (s := t), hparams, hresults]
        rfl
      · cases h
    · cases h
  · intro h
    have hresults := hread s.results []
    rw [List.append_nil] at hresults
    rw [h, text, ofText?, String.toList_ofList, hread]
    simp [hresults]

theorem text_injective {s t : Signature} (h : s.text = t.text) : s = t := by
  have hs : ofText? s.text = some s := ofText?_eq_some_iff.mpr rfl
  have ht : ofText? t.text = some t := ofText?_eq_some_iff.mpr rfl
  rw [h, ht] at hs
  exact (Option.some.inj hs).symm

/-- No signature reads like a complaint about a type, whatever the type is called. -/
theorem text_ne_unsupported (s : Signature) (name : String) :
    s.text ≠ "unsupported value type: " ++ name := by
  intro h
  have hhead := congrArg (fun t => t.toList.head?) h
  simp [text, parenthesized] at hhead

/-- What a report says of a type reads like a signature only if it is the signature of that type. -/
theorem textOf_eq_text_iff {declared : Except UnsupportedType Signature} {s : Signature} :
    textOf declared = s.text ↔ declared = .ok s := by
  cases declared with
  | ok t =>
    rw [Except.ok.injEq]
    exact ⟨text_injective, fun h => congrArg text h⟩
  | error e =>
    simp only [reduceCtorEq, iff_false]
    exact fun h => text_ne_unsupported s e.type.name h.symm

end Signature

theorem Import.FailsWith.expected_ne_text {bindings : HostTable} {i : Import} {name : ImportName}
    {expected : String} {found : Signature}
    (h : i.FailsWith bindings (.signatureMismatch name expected found)) :
    expected ≠ found.text := by
  cases h with
  | mismatch _ _ _ hne => exact fun h => hne (Signature.text_injective h)
  | unsupported => exact fun h => Signature.text_ne_unsupported _ _ h.symm

/-- Only an import that fails makes a build report a mismatch of signatures. -/
theorem Plan.exists_failsWith_of_build {plan : Plan} {engine : Engine} {files : Files} {host : Host}
    {name : ImportName} {expected : String} {found : Signature}
    (h : (plan.build engine files host).1 = .error (.signatureMismatch name expected found)) :
    ∃ i : Import, i.FailsWith plan.bindings (.signatureMismatch name expected found) := by
  rcases plan.rejects_or_accepts engine files with ⟨e, hr⟩ | ⟨mod, ha⟩
  · rw [hr.build_eq] at h
    obtain rfl := Except.error.inj h
    cases hr with
    | imports _ _ _ _ _ hf => exact ⟨_, hf⟩
  · by_cases hmetered : engine.metered = true
    · rcases ha.build_cases hmetered host with ⟨⟨inst, hb⟩, _⟩ | ⟨stop, hb, _⟩
      · rw [hb] at h
        cases h
      · rw [hb] at h
        cases h
    · rw [build, ha.prepare_of_not_metered hmetered] at h
      cases h

theorem Instance.declared_ne_of_invoke {inst : Instance} {host : Host} {f : ExportedFunction}
    {args : Arguments} {results : Shape} {name expected : String} {found : Signature}
    (h : (inst.invoke host f args results).1 = .error (.signatureMismatch name expected found)) :
    expected = Signature.textOf (inst.signature f) ∧ inst.signature f ≠ .ok found := by
  by_cases hs : inst.signature f = .ok ⟨args.kinds, results.kinds⟩
  · obtain ⟨stop, he, _⟩ := (invoke_eq_error_iff hs).mp h
    cases he
  · rw [invoke_of_signature_ne inst host f args results hs] at h
    cases h
    exact ⟨rfl, hs⟩

namespace Signature

/-- The written form of a signature tells it from every other one, and from what is said of a type
that has no signature; it can be read back. So no report of a mismatch, of an import or of an
export, says of one text that it was declared and that it was provided. -/
theorem text_unambiguous :
    (∀ s t : Signature, s.text = t.text → s = t) ∧
    (∀ (t : String) (s : Signature), ofText? t = some s ↔ t = s.text) ∧
    (∀ (s : Signature) (e : UnsupportedType), s.text ≠ e.message) ∧
    (∀ (plan : Plan) (engine : Engine) (files : Files) (host : Host) (name : ImportName)
      (expected : String) (found : Signature),
      (plan.build engine files host).1 = .error (.signatureMismatch name expected found) →
        expected ≠ found.text) ∧
    (∀ (inst : Instance) (host : Host) (f : ExportedFunction) (args : Arguments) (results : Shape)
      (name expected : String) (found : Signature),
      (inst.invoke host f args results).1 = .error (.signatureMismatch name expected found) →
        expected ≠ found.text) := by
  refine ⟨fun s t => text_injective, fun t s => ofText?_eq_some_iff,
    fun s e => text_ne_unsupported s e.type.name, ?_, ?_⟩
  · intro plan engine files host name expected found h
    obtain ⟨i, hi⟩ := Plan.exists_failsWith_of_build h
    exact hi.expected_ne_text
  · intro inst host f args results name expected found h
    obtain ⟨rfl, hne⟩ := Instance.declared_ne_of_invoke h
    exact fun heq => hne (textOf_eq_text_iff.mp heq)

/-- An import that is declared with a vector is reported as such, beside the signature of its
binding. -/
theorem text_unambiguous_vector :
    let engine : Engine := ⟨true, fun _ => .ok (Plan.importing [⟨[.v128], []⟩])⟩
    ∃ expected found, (Plan.single.build engine Launch.noFiles .still).1 =
        .error (.signatureMismatch ⟨"env", "f"⟩ expected found) ∧
      found.text = "(i32) -> ()" ∧ expected ≠ found.text ∧ ofText? found.text = some found := by
  intro engine
  obtain ⟨_, hread, _, himport, _⟩ := text_unambiguous
  have hb : (Plan.single.build engine Launch.noFiles .still).1 =
    .error (.signatureMismatch ⟨"env", "f"⟩
      "unsupported value type: v128" ⟨[.i32], []⟩) := rfl
  exact ⟨_, _, hb, rfl, himport _ _ _ _ _ _ _ hb, (hread _ _).mpr rfl⟩

end Signature

end WasmHost
