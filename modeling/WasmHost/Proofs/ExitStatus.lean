import WasmHost.Proofs.LaunchExit

namespace WasmHost

namespace Status

theorem toNat_report_exited {code : Int32} (h : 0 ≤ code.toInt ∧ code.toInt ≤ 255) :
    ((exited code).report.toNat : Int) = code.toInt := by
  have hreport : (exited code).report = UInt8.ofNat code.toInt.toNat := if_pos h
  have hlt : code.toInt.toNat < 256 := by omega
  rw [hreport, UInt8.toNat_ofNat_of_lt' hlt, Int.toNat_of_nonneg h.1]

theorem report_exited_of_not {code : Int32} (h : ¬ (0 ≤ code.toInt ∧ code.toInt ≤ 255)) :
    (exited code).report = 1 := if_neg h

/-- No code but zero is reported as success. -/
theorem report_exited_eq_zero_iff {code : Int32} : (exited code).report = 0 ↔ code = 0 := by
  constructor
  · intro hzero
    by_cases h : 0 ≤ code.toInt ∧ code.toInt ≤ 255
    · have hcode := toNat_report_exited h
      rw [hzero] at hcode
      exact Int32.toInt_inj.mp hcode.symm
    · rw [report_exited_of_not h] at hzero
      cases hzero
  · intro hcode
    rw [hcode]
    rfl

end Status

namespace Instance

/-- What is exported as the entry point is a function, this one, and it takes nothing and gives
nothing. -/
def IsEntry (inst : Instance) (index : Nat) : Prop :=
  inst.mod.exports.lookup Launch.entryPoint = some (.func index) ∧
    ∀ callee, inst.mod.callee? index = some callee → callee.type = ⟨[], []⟩

def entryAt (index : Nat) : ExportedFunction := ⟨Launch.entryPoint, index⟩

variable {inst : Instance} {host : Host} {index : Nat}

theorem find_entry_eq_ok_iff {f : ExportedFunction} :
    inst.find Launch.entryPoint = .ok f ↔
      ∃ index, inst.mod.exports.lookup Launch.entryPoint = some (.func index) ∧
        f = entryAt index := by
  unfold find Module.exportedFunction?
  cases inst.mod.exports.lookup Launch.entryPoint with
  | none => simp
  | some shown => cases shown <;> simp [entryAt, eq_comm]

theorem eq_of_find_eq_error {name : String} {e : InvokeError} (h : inst.find name = .error e) :
    e = .exportNotFound name := by
  unfold find at h
  split at h
  · cases h
  · exact (Except.error.inj h).symm

theorem signature_eq_empty_iff {f : ExportedFunction} :
    inst.signature f = .ok ⟨[], []⟩ ↔
      ∀ callee, inst.mod.callee? f.index = some callee → callee.type = ⟨[], []⟩ := by
  unfold signature
  cases inst.mod.callee? f.index with
  | none => simp
  | some callee =>
    have htype : Signature.ofFuncType callee.type = .ok ⟨[], []⟩ ↔ callee.type = ⟨[], []⟩ :=
      Signature.ofFuncType_eq_ok_iff
    simpa using htype

theorem IsEntry.find (h : inst.IsEntry index) : inst.find Launch.entryPoint = .ok (entryAt index) :=
  find_entry_eq_ok_iff.mpr ⟨index, h.1, rfl⟩

theorem IsEntry.signature (h : inst.IsEntry index) :
    inst.signature (entryAt index) = .ok ⟨[], []⟩ :=
  signature_eq_empty_iff.mpr h.2

end Instance

namespace Launch

/-- The ways in which a run can end. -/
inductive Ending
  | unbuilt
  | noEntry
  | faulted
  | returned
  | exited (code : Int32)
deriving DecidableEq

/-- A run comes to have this instance. -/
def Builds (l : Launch) (create : Except String Engine) (files : Files) (host : Host)
    (inst : Instance) (host' : Host) :
    Prop :=
  ∃ engine, l.engineOf create = .ok engine ∧ l.plan.build engine files host = (.ok inst, host')

/-- How a run ends, told from whether there is an instance, from its entry point, and from what the
guest passes through from there: a request of a host function to end, a normal end, or else a
failure. -/
inductive Ends (l : Launch) (create : Except String Engine) (files : Files) (host : Host) :
    Ending → Prop
  | unbuilt (h : ∀ inst host', ¬ l.Builds create files host inst host') :
      Ends l create files host .unbuilt
  | noEntry {inst : Instance} {host' : Host} (hb : l.Builds create files host inst host')
      (h : ∀ index, ¬ inst.IsEntry index) : Ends l create files host .noEntry
  | faulted {inst : Instance} {host' : Host} {index : Nat} {stop : Stop}
      (hb : l.Builds create files host inst host') (hi : inst.IsEntry index)
      (h : inst.Faults host' (Instance.entryAt index) [] .unit stop) :
      Ends l create files host .faulted
  | returned {inst : Instance} {host' : Host} {index : Nat} {m : Machine Host}
      (hb : l.Builds create files host inst host') (hi : inst.IsEntry index)
      (h : inst.Passes host' (Instance.entryAt index) [] (.halt (.ok []) m)) :
      Ends l create files host .returned
  | exited {inst : Instance} {host' : Host} {index : Nat} {c : Config Host} {code : Int32}
      (hb : l.Builds create files host inst host') (hi : inst.IsEntry index)
      (hc : inst.Passes host' (Instance.entryAt index) [] c) (h : c.Raises inst.imports ⟨code⟩) :
      Ends l create files host (.exited code)

/-- What is answered for the way in which a run ends. -/
inductive Ending.Answers : Ending → Except RunError Status → Prop
  | engine (message : String) : Answers unbuilt (.error (.engine message))
  | build (e : BuildError) : Answers unbuilt (.error (.build e))
  | notFound : Answers noEntry (.error (.invoke (.exportNotFound entryPoint)))
  | mismatch (expected : String) :
      Answers noEntry (.error (.invoke (.signatureMismatch entryPoint expected ⟨[], []⟩)))
  | faulted (stop : Stop) : Answers faulted (.error (.invoke (.executionFault stop)))
  | returned : Answers returned (.ok .returned)
  | exited (code : Int32) : Answers (exited code) (.ok (.exited code))

namespace Ending

/-- The exit status that tells of an ending. -/
def status : Ending → UInt8
  | unbuilt => 126
  | noEntry => 127
  | faulted => 134
  | returned => 0
  | exited code => (Status.exited code).report

theorem Answers.unique {e e' : Ending} {r : Except RunError Status} (h : e.Answers r)
    (h' : e'.Answers r) : e = e' := by
  cases h <;> cases h' <;> rfl

theorem Answers.exitStatus_eq {e : Ending} {r : Except RunError Status} (h : e.Answers r) :
    exitStatus r = e.status := by
  cases h <;> rfl

theorem status_eq_zero_iff {e : Ending} : e.status = 0 ↔ e = returned ∨ e = exited 0 := by
  cases e with
  | exited code => simpa [status] using Status.report_exited_eq_zero_iff
  | _ => simp [status]

end Ending

variable {l : Launch} {create : Except String Engine} {files : Files} {host host' : Host}
  {inst : Instance}

theorem Builds.run_eq (h : l.Builds create files host inst host') :
    l.run create files host = enter inst host' := by
  obtain ⟨engine, he, hb⟩ := h
  rw [Launch.run_eq l he, hb]

theorem run_of_engine_error {message : String} (h : l.engineOf create = .error message)
    (files : Files) (host : Host) :
    l.run create files host = (.error (.engine message), host) := by
  unfold engineOf at h
  unfold run
  cases hl : l.engine with
  | none =>
    rw [hl] at h
    obtain rfl : create = .error message := h
    rfl
  | some engine =>
    rw [hl] at h
    cases h

theorem answers_of_not_builds (h : ∀ inst host', ¬ l.Builds create files host inst host') :
    Ending.unbuilt.Answers (l.run create files host).1 := by
  cases he : l.engineOf create with
  | error message =>
    rw [run_of_engine_error he]
    exact .engine message
  | ok engine =>
    rw [Launch.run_eq l he]
    rcases hb : l.plan.build engine files host with ⟨e | inst, host'⟩
    · exact .build e
    · exact absurd ⟨engine, he, hb⟩ (h inst host')

/-- Without an entry point nothing is called. -/
theorem enter_of_not_isEntry (h : ∀ index, ¬ inst.IsEntry index) (host : Host) :
    Ending.noEntry.Answers (enter inst host).1 ∧ (enter inst host).2 = host ∧
    ∀ f, inst.find entryPoint = .ok f →
      (inst.invoke host f ⟨.unit, ()⟩ .unit).2 = (inst, host) := by
  cases hf : inst.find entryPoint with
  | error e =>
    have henter : enter inst host = (.error (.invoke (.exportNotFound entryPoint)), host) := by
      simp only [enter, hf, Instance.eq_of_find_eq_error hf]
    rw [henter]
    exact ⟨.notFound, rfl, fun f hfound => by cases hfound⟩
  | ok f =>
    obtain ⟨index, hexport, rfl⟩ := Instance.find_entry_eq_ok_iff.mp hf
    have hne : inst.signature (Instance.entryAt index) ≠ .ok ⟨[], []⟩ :=
      fun hs => h index ⟨hexport, Instance.signature_eq_empty_iff.mp hs⟩
    have hinvoke := Instance.invoke_of_signature_ne inst host (Instance.entryAt index) ⟨.unit, ()⟩
      .unit hne
    have henter : enter inst host = (.error (.invoke (.signatureMismatch entryPoint
        (Signature.textOf (inst.signature (Instance.entryAt index))) ⟨[], []⟩)), host) := by
      simp only [enter, hf, hinvoke]
      rfl
    rw [henter]
    refine ⟨.mismatch _, rfl, fun f hfound => ?_⟩
    obtain rfl := Except.ok.inj hfound
    rw [hinvoke]

theorem enter_of_isEntry {index : Nat} (h : inst.IsEntry index) (host : Host) :
    (enter inst host).1 = match (inst.invoke host (Instance.entryAt index) ⟨.unit, ()⟩ .unit).1 with
      | .error e => .error (.invoke e)
      | .ok outcome => .ok (entryStatus outcome) := by
  simp only [enter, h.find]
  rcases inst.invoke host (Instance.entryAt index) ⟨.unit, ()⟩ .unit with
    ⟨e | outcome, inst', host'⟩
  · rfl
  · rfl

/-- A run is answered as it ends. -/
theorem Ends.answers {e : Ending} (h : l.Ends create files host e) :
    e.Answers (l.run create files host).1 := by
  cases h with
  | unbuilt h => exact answers_of_not_builds h
  | noEntry hb h =>
    rw [hb.run_eq]
    exact (enter_of_not_isEntry h _).1
  | @faulted inst host' index stop hb hi h =>
    have hinvoke : (inst.invoke host' (Instance.entryAt index) ⟨.unit, ()⟩ .unit).1 =
      .error (.executionFault stop) :=
      (Instance.invoke_eq_error_iff hi.signature).mpr ⟨stop, rfl, h⟩
    rw [hb.run_eq, enter_of_isEntry hi, hinvoke]
    exact .faulted stop
  | @returned inst host' index m hb hi h =>
    have hinvoke : (inst.invoke host' (Instance.entryAt index) ⟨.unit, ()⟩ .unit).1 =
      .ok (.returned ()) :=
      (Instance.invoke_eq_returned_iff hi.signature).mpr ⟨m, h⟩
    rw [hb.run_eq, enter_of_isEntry hi, hinvoke]
    exact .returned
  | @exited inst host' index c code hb hi hc h =>
    have hinvoke : (inst.invoke host' (Instance.entryAt index) ⟨.unit, ()⟩ .unit).1 =
      .ok (.exited ⟨code⟩) :=
      (Instance.invoke_eq_exited_iff hi.signature).mpr ⟨c, hc, h⟩
    rw [hb.run_eq, enter_of_isEntry hi, hinvoke]
    exact .exited code

theorem exists_ends (l : Launch) (create : Except String Engine) (files : Files) (host : Host) :
    ∃ e, l.Ends create files host e := by
  by_cases hbuilds : ∃ inst host', l.Builds create files host inst host'
  · obtain ⟨inst, host', hb⟩ := hbuilds
    by_cases hentry : ∃ index, inst.IsEntry index
    · obtain ⟨index, hi⟩ := hentry
      -- The three ways in which the call of the entry point can come out.
      cases hinvoke : (inst.invoke host' (Instance.entryAt index) ⟨.unit, ()⟩ .unit).1 with
      | error e =>
        obtain ⟨stop, _, h⟩ := (Instance.invoke_eq_error_iff hi.signature).mp hinvoke
        exact ⟨_, .faulted hb hi h⟩
      | ok outcome =>
        cases outcome with
        | returned value =>
          obtain ⟨m, h⟩ := (Instance.invoke_eq_returned_iff hi.signature).mp hinvoke
          exact ⟨_, .returned hb hi h⟩
        | exited signal =>
          obtain ⟨c, hc, h⟩ := (Instance.invoke_eq_exited_iff hi.signature).mp hinvoke
          exact ⟨_, .exited hb hi hc h⟩
    · exact ⟨_, .noEntry hb (not_exists.mp hentry)⟩
  · exact ⟨_, .unbuilt fun inst host' hb => hbuilds ⟨inst, host', hb⟩⟩

theorem Ends.unique {e e' : Ending} (h : l.Ends create files host e)
    (h' : l.Ends create files host e') : e = e' :=
  h.answers.unique h'.answers

theorem Ends.exitStatus_eq {e : Ending} (h : l.Ends create files host e) :
    exitStatus (l.run create files host).1 = e.status := h.answers.exitStatus_eq

/-- A run ends in one way and no other, and the exit status of the process tells which: of a guest
that asked to end it is the code that was asked for, if that fits. It is zero only for a return and
for a request with code zero. -/
theorem exit_status_of_ends (l : Launch) (create : Except String Engine) (files : Files)
    (host : Host) :
    let r := l.run create files host
    (∃ e, l.Ends create files host e ∧ e.Answers r.1 ∧ ∀ e', l.Ends create files host e' → e' = e) ∧
    (l.Ends create files host .unbuilt → exitStatus r.1 = 126) ∧
    (l.Ends create files host .noEntry → exitStatus r.1 = 127) ∧
    (l.Ends create files host .faulted → exitStatus r.1 = 134) ∧
    (l.Ends create files host .returned → exitStatus r.1 = 0) ∧
    (∀ code, l.Ends create files host (.exited code) →
      (0 ≤ code.toInt ∧ code.toInt ≤ 255 → ((exitStatus r.1).toNat : Int) = code.toInt) ∧
      (¬ (0 ≤ code.toInt ∧ code.toInt ≤ 255) → exitStatus r.1 = 1)) ∧
    (exitStatus r.1 = 0 ↔
      l.Ends create files host .returned ∨ l.Ends create files host (.exited 0)) ∧
    ∀ inst host', l.Builds create files host inst host' → (∀ index, ¬ inst.IsEntry index) →
      r.2 = host' ∧ ∀ f, inst.find entryPoint = .ok f →
        (inst.invoke host' f ⟨.unit, ()⟩ .unit).2 = (inst, host') := by
  intro r
  obtain ⟨e, he⟩ := exists_ends l create files host
  refine ⟨⟨e, he, he.answers, fun e' he' => he'.unique he⟩, Ends.exitStatus_eq, Ends.exitStatus_eq,
    Ends.exitStatus_eq,
    Ends.exitStatus_eq, ?_, ?_, ?_⟩
  · intro code h
    have hr : exitStatus r.1 = (Status.exited code).report := h.exitStatus_eq
    rw [hr]
    exact ⟨Status.toNat_report_exited, Status.report_exited_of_not⟩
  · have hr : exitStatus r.1 = e.status := he.exitStatus_eq
    rw [hr, Ending.status_eq_zero_iff]
    constructor
    · rintro (rfl | rfl)
      · exact .inl he
      · exact .inr he
    · rintro (h | h)
      · exact .inl (he.unique h)
      · exact .inr (he.unique h)
  · intro inst host' hb hnone
    have hr : r = enter inst host' := hb.run_eq
    rw [hr]
    exact (enter_of_not_isEntry hnone host').2

/-- A run of a module whose entry point asks to end with this code. -/
def asking (code : Int32) : Launch where
  source := .bytes []
  engine := some ⟨true, fun _ => .ok {
    imports := [⟨Wasi.exitName, .func ⟨[.number .i32], []⟩⟩]
    functions := [⟨⟨[], []⟩, .op (.const (.i32 code.toUInt32)) (.call 0 .done)⟩]
    exports := [(entryPoint, .func 1)] }⟩

theorem ends_asking (code : Int32) :
    (asking code).Ends (.error "") noFiles .still (.exited code) := by
  have hbuilds : ∃ inst host', (asking code).Builds (.error "") noFiles .still inst host' ∧
    inst.IsEntry 1 ∧
      ∃ c, inst.Passes host' (Instance.entryAt 1) [] c ∧ c.Raises inst.imports ⟨code⟩ := by
    refine ⟨_, _, ⟨_, rfl, rfl⟩, ⟨rfl, ?_⟩, _, .head rfl (.head rfl (.head rfl (.head rfl .refl))),
      _, .exit ⟨code⟩, rfl,
      rfl, rfl⟩
    intro callee hcallee
    cases hcallee
    rfl
  obtain ⟨inst, host', hb, hi, c, hc, h⟩ := hbuilds
  exact .exited hb hi hc h

theorem exit_status_of_ends_asking :
    (asking 256).Ends (.error "") noFiles .still (.exited 256) ∧
    exitStatus ((asking 256).run (.error "") noFiles .still).1 = 1 ∧
    ((exitStatus ((asking 42).run (.error "") noFiles .still).1).toNat : Int) = 42 ∧
    exitStatus ((asking (-1)).run (.error "") noFiles .still).1 ≠ 0 := by
  have hexited (code : Int32) :=
    (exit_status_of_ends (asking code) (.error "") noFiles .still).2.2.2.2.2.1 code
  have hzero := (exit_status_of_ends (asking (-1)) (.error "") noFiles .still).2.2.2.2.2.2.1
  refine ⟨ends_asking 256, ?_, ?_, ?_⟩
  · exact (hexited 256 (ends_asking 256)).2 (by decide)
  · exact (hexited 42 (ends_asking 42)).1 (by decide)
  · intro hsuccess
    rcases hzero.mp hsuccess with h | h
    · cases h.unique (ends_asking (-1))
    · cases h.unique (ends_asking (-1))

end Launch

end WasmHost
