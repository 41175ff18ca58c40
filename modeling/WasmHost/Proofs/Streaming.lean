import WasmHost.FileTree
import WasmHost.Proofs.BuildOrder

namespace WasmHost

namespace Read

/-- The bytes that a read brings. -/
def bytes : Read → Bytes
  | piece bytes => bytes
  | interrupted | failed _ => []

/-- After such a read the file is read on: it brought something, or was interrupted. -/
def Continues : Read → Prop
  | piece bytes => bytes ≠ []
  | interrupted => True
  | failed _ => False

/-- The reads come to the end of the file, and what they brought until then is this, in whatever
pieces. -/
def Delivers (reads : List Read) (content : Bytes) : Prop :=
  ∃ before rest, reads = before ++ rest ∧ (∀ read ∈ before, read.Continues) ∧
    before.flatMap bytes = content ∧
    (rest = [] ∨ rest.head? = some (.piece []))

/-- The reads come to one that fails for good before they come to the end of the file. -/
def Breaks (reads : List Read) (e : IoError) : Prop :=
  ∃ before rest, reads = before ++ .failed e :: rest ∧ ∀ read ∈ before, read.Continues

theorem contents_cons_of_continues {read : Read} (h : read.Continues) (rest : List Read) :
    contents (read :: rest) = (contents rest).map (read.bytes ++ ·) := by
  cases read with
  | piece more =>
    cases more with
    | nil => exact absurd rfl h
    | cons x xs => rfl
  | interrupted =>
    cases hr : contents rest <;> simp [contents, bytes, hr, Except.map]
  | failed e => exact absurd h id

theorem contents_append {before : List Read} (h : ∀ read ∈ before, read.Continues)
    (rest : List Read) :
    contents (before ++ rest) = (contents rest).map (before.flatMap bytes ++ ·) := by
  induction before with
  | nil => cases hr : contents rest <;> simp [hr, Except.map]
  | cons read before ih =>
    rw [List.forall_mem_cons] at h
    rw [List.cons_append, contents_cons_of_continues h.1, ih h.2]
    cases contents rest <;> simp [Except.map]

theorem Delivers.contents_eq {reads : List Read} {content : Bytes} (h : Delivers reads content) :
    contents reads = .ok content := by
  obtain ⟨before, rest, rfl, hbefore, rfl, hend⟩ := h
  have hrest : contents rest = .ok [] := by
    rcases hend with rfl | hend
    · rfl
    · obtain ⟨later, rfl⟩ := List.head?_eq_some_iff.mp hend
      rfl
  rw [contents_append hbefore, hrest]
  simp [Except.map]

theorem Breaks.contents_eq {reads : List Read} {e : IoError} (h : Breaks reads e) :
    contents reads = .error e := by
  obtain ⟨before, rest, rfl, hbefore⟩ := h
  rw [contents_append hbefore]
  rfl

/-- There is no third way for reads to go. -/
theorem delivers_or_breaks (reads : List Read) :
    (∃ content, Delivers reads content) ∨ ∃ e, Breaks reads e := by
  induction reads with
  | nil => exact .inl ⟨[], [], [], rfl, by simp, rfl, .inl rfl⟩
  | cons read reads ih =>
    by_cases hread : read.Continues
    · rcases ih with ⟨content, before, rest, rfl, hbefore, rfl, hend⟩ | ⟨e, before, rest, rfl,
        hbefore⟩
      · left
        refine ⟨_, read :: before, rest, rfl, ?_, rfl, hend⟩
        exact List.forall_mem_cons.mpr ⟨hread, hbefore⟩
      · right
        refine ⟨e, read :: before, rest, rfl, ?_⟩
        exact List.forall_mem_cons.mpr ⟨hread, hbefore⟩
    · cases read with
      | piece more =>
        obtain rfl : more = [] := not_not.mp hread
        exact .inl ⟨[], [], _, rfl, by simp, rfl, .inr rfl⟩
      | interrupted => exact absurd trivial hread
      | failed e => exact .inr ⟨e, [], reads, rfl, by simp⟩

theorem contents_eq_ok_iff {reads : List Read} {content : Bytes} :
    contents reads = .ok content ↔ Delivers reads content := by
  constructor
  · intro h
    rcases delivers_or_breaks reads with ⟨content', h'⟩ | ⟨e, h'⟩
    · rw [h'.contents_eq] at h
      exact Except.ok.inj h ▸ h'
    · rw [h'.contents_eq] at h
      cases h
  · exact Delivers.contents_eq

theorem contents_eq_error_iff {reads : List Read} {e : IoError} :
    contents reads = .error e ↔ Breaks reads e := by
  constructor
  · intro h
    rcases delivers_or_breaks reads with ⟨content, h'⟩ | ⟨e', h'⟩
    · rw [h'.contents_eq] at h
      cases h
    · rw [h'.contents_eq] at h
      exact Except.error.inj h ▸ h'
  · exact Breaks.contents_eq

end Read

/-- Of a source only what it loads matters to a build. -/
theorem Plan.build_congr_load {plan : Plan} {source source' : Source} {files : Files}
    (h : source.load files = source'.load files) (engine : Engine) (host : Host) :
    { plan with source }.build engine files host =
      { plan with source := source' }.build engine files host := by
  have hload : { plan with source }.load files = { plan with source := source' }.load files := by
    simp only [load, h]
  have hprepare : { plan with source }.prepare engine files =
    { plan with source := source' }.prepare engine files := by
    rw [prepare, prepare, hload]
    rfl
  rw [build, build, hprepare]
  rfl

namespace Source

variable {files : Files} {path : String} {reads : List Read}

theorem contents_file (h : files path = .ok reads) :
    (file path).contents files = Read.contents reads := by
  rw [contents, h]
  rfl

theorem load_file_eq_ok_iff (h : files path = .ok reads) {loaded : Loaded} :
    (file path).load files = .ok loaded ↔
      Read.Delivers reads loaded.bytes ∧ loaded.checksum.toNat = adler32 loaded.bytes := by
  have hsum : loaded.checksum.toNat = adler32 loaded.bytes ↔
    Loaded.ofBytes loaded.bytes = loaded := by
    rw [← Loaded.toNat_checksum_ofBytes, UInt32.toNat_inj]
    obtain ⟨content, sum⟩ := loaded
    simp [Loaded.ofBytes, eq_comm]
  rw [load_eq, contents_file h, hsum]
  constructor
  · intro hload
    cases hc : Read.contents reads with
    | error e =>
      rw [hc] at hload
      cases hload
    | ok content =>
      rw [hc] at hload
      obtain rfl := Except.ok.inj hload
      exact ⟨Read.contents_eq_ok_iff.mp hc, rfl⟩
  · intro hloaded
    rw [hloaded.1.contents_eq, Except.map, hloaded.2]

theorem load_file_eq_error_iff (h : files path = .ok reads) {e : IoError} :
    (file path).load files = .error e ↔ Read.Breaks reads e := by
  rw [load_eq, contents_file h, ← Read.contents_eq_error_iff]
  cases Read.contents reads <;> simp [Except.map]

/-- However the reads of a file go, it is loaded as what they bring up to its end, with the checksum
of that, unless one of them fails for good: then the load fails as that read did. A plan with the
file is carried out as one with the same bytes at hand, or fails without a module. -/
theorem load_streamed (h : files path = .ok reads) :
    (∀ loaded, (file path).load files = .ok loaded ↔
      Read.Delivers reads loaded.bytes ∧ loaded.checksum.toNat = adler32 loaded.bytes) ∧
    (∀ e, (file path).load files = .error e ↔ Read.Breaks reads e) ∧
    ((∃ content, Read.Delivers reads content) ∨ ∃ e, Read.Breaks reads e) ∧
    (∀ content, Read.Delivers reads content → (file path).load files = (bytes content).load files ∧
      ∀ (plan : Plan) (engine : Engine) (host : Host),
        { plan with source := file path }.build engine files host =
          { plan with source := bytes content }.build engine files host) ∧
    (∀ e, Read.Breaks reads e → ∀ (plan : Plan) (engine : Engine) (host : Host),
      { plan with source := file path }.build engine files host = (.error (.source e), host)) := by
  refine ⟨fun loaded => load_file_eq_ok_iff h, fun e =>
    load_file_eq_error_iff h, Read.delivers_or_breaks reads, ?_, ?_⟩
  · intro content hc
    have hload : (file path).load files = (bytes content).load files :=
      (load_file_eq_ok_iff h).mpr ⟨hc, Loaded.toNat_checksum_ofBytes content⟩
    exact ⟨hload, fun plan engine host => Plan.build_congr_load hload engine host⟩
  · intro e he plan engine host
    have hrejects : { plan with source := file path }.Rejects engine files (.source e) :=
      .source ((contents_file h).trans he.contents_eq)
    exact hrejects.build_eq host

/-- A file of which one read brings two bytes and the next, after two interruptions, brings three or
fails. -/
def halting (e : Option IoError) : List Read :=
  [.piece [97, 98], .interrupted, .interrupted] ++ [e.elim (.piece [99, 100, 101]) .failed]

theorem load_streamed_halting :
    let files : Files :=
      fun path => .ok (halting (if path = "gone" then some (.other "gone") else none))
    (file "here").load files = .ok ⟨[97, 98, 99, 100, 101], 0x05c801f0⟩ ∧
    (file "gone").load files = .error (.other "gone") := by
  intro files
  have hhere : files "here" = .ok (halting none) := rfl
  have hgone : files "gone" = .ok (halting (some (.other "gone"))) := rfl
  obtain ⟨hloaded, _⟩ := load_streamed hhere
  obtain ⟨_, hfailed, _⟩ := load_streamed hgone
  constructor
  · rw [hloaded]
    refine ⟨⟨halting none, [], rfl, ?_, rfl, .inl rfl⟩, by decide⟩
    simp [halting, Read.Continues]
  · rw [hfailed]
    refine ⟨[.piece [97, 98], .interrupted, .interrupted], [], rfl, ?_⟩
    simp [Read.Continues]

end Source

theorem Checksum.ne_nil_of_mem_blocks {size : Nat} {bytes block : Bytes}
    (h : block ∈ blocks size bytes) : block ≠ [] := by
  fun_induction blocks size bytes with
  | case1 => simp at h
  | case2 x xs ih =>
    rcases List.mem_cons.mp h with rfl | h
    · exact List.cons_ne_nil _ _
    · exact ih h

/-- A file of a tree is served in pieces, and loaded as the bytes that were put there. -/
theorem FileTree.load_file {tree : FileTree} {path : String} {content : Bytes}
    (h : tree.resolve path = .ok (.file content)) :
    (Source.file path).load tree.files = .ok (.ofBytes content) := by
  have hfiles : tree.files path = .ok ((Checksum.blocks pieceSize content).map .piece) := by
    rw [files, h]
  have hpieces : Read.Delivers ((Checksum.blocks pieceSize content).map .piece) content := by
    refine ⟨_, [], (List.append_nil _).symm, ?_, ?_, .inl rfl⟩
    · intro read hread
      obtain ⟨block, hblock, rfl⟩ := List.mem_map.mp hread
      exact Checksum.ne_nil_of_mem_blocks hblock
    · rw [List.flatMap_map]
      exact List.flatMap_id.trans (Checksum.flatten_blocks pieceSize content)
  exact (Source.load_file_eq_ok_iff hfiles).mpr ⟨hpieces, Loaded.toNat_checksum_ofBytes content⟩

end WasmHost
