import RemotePi.Lib.Json
import RemotePi.Lib.Trim

/-!
# The registry of daemons

Model of `pi-extension/src/daemon/registry.ts`: the validation of `daemons.json`, which
`saveRegistry` runs before it writes and `loadRegistry` after it has read.

Validation consults the file system: a registered path that exists has to be its own real
path. A file system is the real path of every path that exists; everything else that is
checked is in the file.

Results:
* `parseEntry_valid`: what an accepted entry is like.
* `loadRegistry_saved`: in which file systems a saved registry is loaded again.
-/

namespace RemotePi.Daemon

open RemotePi.Lib

/-! ## Entries -/

/-- `DesiredState` (line 8). -/
inductive DesiredState where
  | running
  | stopped
deriving DecidableEq, Repr

def DesiredState.text : DesiredState → String
  | running => "running"
  | stopped => "stopped"

/-- `DaemonEntry` (lines 11–20). -/
structure DaemonEntry where
  id : String
  cwd : String
  name : String
  desiredState : DesiredState
  createdAt : ℚ
deriving DecidableEq, Repr

/-- What is wrong with an entry, in the order in which `parseEntry` looks. -/
inductive EntryProblem where
  | notObject
  | id
  | cwd
  | realpath
  | name
  | desiredState
  | createdAt
deriving DecidableEq, Repr

/-- The message of `parseEntry` (lines 73–100). -/
def EntryProblem.message (index : ℕ) : EntryProblem → String
  | notObject => s!"registry daemon[{index}] must be an object"
  | id => s!"registry daemon[{index}].id must be an opaque UUID"
  | cwd => s!"registry daemon[{index}].cwd must be an absolute path"
  | realpath => s!"registry daemon[{index}].cwd must be a filesystem realpath"
  | name => s!"registry daemon[{index}].name must be a non-empty string"
  | desiredState => s!"registry daemon[{index}].desired_state must be running or stopped"
  | createdAt => s!"registry daemon[{index}].created_at must be an epoch timestamp"

/-- What is wrong with a registry. The message about a version shows the version. -/
inductive RegistrySchemaError where
  | unreadable
  | json
  | root
  | version (found : Option Json)
  | daemons
  | entry (index : ℕ) (problem : EntryProblem)
  | duplicateId (id : String)
  | duplicateCwd (cwd : String)

/-- `RegistryErrorCode` (line 27). -/
inductive RegistryErrorCode where
  | schemaInvalid
  | schemaUnsupported
deriving DecidableEq, Repr

/-- The code of an error; an absent version and version 1 are old registries (line 110). -/
def RegistrySchemaError.code : RegistrySchemaError → RegistryErrorCode
  | version none => .schemaUnsupported
  | version (some (.number n)) => if n = 1 then .schemaUnsupported else .schemaInvalid
  | _ => .schemaInvalid

/-- The real path of every path that exists. -/
abbrev FileSystem := String → Option String

def isHexDigit (c : Char) : Bool :=
  ('0' ≤ c ∧ c ≤ '9') ∨ ('a' ≤ c ∧ c ≤ 'f') ∨ ('A' ≤ c ∧ c ≤ 'F')

/-- `isOpaqueId` (lines 67–71): a UUID of version 1 to 8, in either case. -/
def isOpaqueId (value : String) : Bool :=
  value.toList.length = 36 && value.toList.zipIdx.all fun (c, index) =>
    if index = 8 ∨ index = 13 ∨ index = 18 ∨ index = 23 then c = '-'
    else if index = 14 then '1' ≤ c ∧ c ≤ '8'
    else if index = 19 then c ∈ ['8', '9', 'a', 'b', 'A', 'B']
    else isHexDigit c

def isAbsolute (path : String) : Bool := path.toList.head? = some '/'

/-- The string that a value is. -/
def text? : Option Json → Option String
  | some (.string s) => some s
  | _ => none

/-- The number that a value is. -/
def number? : Option Json → Option ℚ
  | some (.number n) => some n
  | _ => none

def desiredState? : Option Json → Option DesiredState
  | some (.string "running") => some .running
  | some (.string "stopped") => some .stopped
  | _ => none

/-- A path that exists has to be its own real path (lines 81–83). -/
def isCanonicalPath (fs : FileSystem) (cwd : String) : Bool :=
  match fs cwd with
  | none => true
  | some realpath => realpath = cwd

/-- The checks of `parseEntry` on an object (lines 75–99). -/
def parseFields (fs : FileSystem) (value : Json) (index : ℕ) :
    Except RegistrySchemaError DaemonEntry :=
  match (text? (value.member? "id")).filter isOpaqueId with
  | none => .error (.entry index .id)
  | some id =>
    match (text? (value.member? "cwd")).filter isAbsolute with
    | none => .error (.entry index .cwd)
    | some cwd =>
      if !isCanonicalPath fs cwd then .error (.entry index .realpath)
      else
        match (text? (value.member? "name")).filter fun name => trimmed name ≠ "" with
        | none => .error (.entry index .name)
        | some name =>
          match desiredState? (value.member? "desired_state") with
          | none => .error (.entry index .desiredState)
          | some desiredState =>
            match (number? (value.member? "created_at")).filter fun n => 0 ≤ n with
            | none => .error (.entry index .createdAt)
            | some createdAt => .ok ⟨id, cwd, trimmed name, desiredState, createdAt⟩

/-- `parseEntry` (lines 73–100). An array has none of the members. -/
def parseEntry (fs : FileSystem) (value : Json) (index : ℕ) :
    Except RegistrySchemaError DaemonEntry :=
  match value with
  | .object _ | .array _ => parseFields fs value index
  | _ => .error (.entry index .notObject)

/-! ## The registry -/

/-- The entries of the array, the first error first (line 117). -/
def parseEntries (fs : FileSystem) : List Json → ℕ → Except RegistrySchemaError (List DaemonEntry)
  | [], _ => .ok []
  | value :: values, index =>
    match parseEntry fs value index with
    | .error e => .error e
    | .ok entry =>
      match parseEntries fs values (index + 1) with
      | .error e => .error e
      | .ok entries => .ok (entry :: entries)

/-- The search for duplicates (lines 118–125). -/
def findDuplicate : List DaemonEntry → List String → List String → Option RegistrySchemaError
  | [], _, _ => none
  | entry :: entries, ids, cwds =>
    if ids.contains entry.id then some (.duplicateId entry.id)
    else if cwds.contains entry.cwd then some (.duplicateCwd entry.cwd)
    else findDuplicate entries (entry.id :: ids) (entry.cwd :: cwds)

/-- `DaemonRegistry` (lines 22–25). -/
structure DaemonRegistry where
  daemons : List DaemonEntry
deriving DecidableEq, Repr

/-- `validateRegistry` (lines 102–128). -/
def validateRegistry (fs : FileSystem) (value : Json) : Except RegistrySchemaError DaemonRegistry :=
  match value with
  | .object _ =>
    if number? (value.member? "version") ≠ some 2 then .error (.version (value.member? "version"))
    else
      match value.member? "daemons" with
      | some (.array values) =>
        match parseEntries fs values 0 with
        | .error e => .error e
        | .ok daemons =>
          match findDuplicate daemons [] [] with
          | some e => .error e
          | none => .ok ⟨daemons⟩
      | _ => .error .daemons
  | _ => .error .root

/-! ## The file -/

def DaemonEntry.json (entry : DaemonEntry) : Json :=
  .object [("id", .string entry.id), ("cwd", .string entry.cwd), ("name", .string entry.name),
    ("desired_state", .string entry.desiredState.text), ("created_at", .number entry.createdAt)]

def DaemonRegistry.json (registry : DaemonRegistry) : Json :=
  .object [("version", .number 2), ("daemons", .array (registry.daemons.map DaemonEntry.json))]

/-- What is found that reads `daemons.json`. -/
inductive RegistryFile where
  | missing
  | unreadable
  | text (parsed : Option Json)

/-- `loadRegistry` (lines 131–147). -/
def loadRegistry (fs : FileSystem) : RegistryFile → Except RegistrySchemaError DaemonRegistry
  | .missing => .ok ⟨[]⟩
  | .unreadable => .error .unreadable
  | .text none => .error .json
  | .text (some value) => validateRegistry fs value

/-- The registry that `saveRegistry` (lines 150–161) writes, when it accepts the value. -/
def saveRegistry (fs : FileSystem) (value : Json) : Except RegistrySchemaError DaemonRegistry :=
  validateRegistry fs value

/-- The file that holds a saved registry. -/
def DaemonRegistry.file (registry : DaemonRegistry) : RegistryFile := .text (some registry.json)

/-! ## Loading what was saved -/

/-- What validation makes of an entry, whatever the file system is. -/
structure DaemonEntry.Valid (entry : DaemonEntry) : Prop where
  id : isOpaqueId entry.id = true
  cwd : isAbsolute entry.cwd = true
  name : trimmed entry.name = entry.name
  nameNotEmpty : entry.name ≠ ""
  createdAt : 0 ≤ entry.createdAt

theorem parseFields_valid {fs : FileSystem} {value : Json} {index : ℕ} {entry : DaemonEntry}
    (h : parseFields fs value index = .ok entry) : entry.Valid := by
  unfold parseFields at h
  split at h
  · cases h
  rename_i id hid
  split at h
  · cases h
  rename_i cwd hcwd
  split_ifs at h
  split at h
  · cases h
  rename_i name hname
  split at h
  · cases h
  rename_i desiredState hstate
  split at h
  · cases h
  rename_i createdAt hcreated
  cases h
  exact ⟨(Option.filter_eq_some_iff.mp hid).2, (Option.filter_eq_some_iff.mp hcwd).2,
    trimmed_trimmed name, of_decide_eq_true (Option.filter_eq_some_iff.mp hname).2,
    of_decide_eq_true (Option.filter_eq_some_iff.mp hcreated).2⟩

theorem parseEntry_valid {fs : FileSystem} {value : Json} {index : ℕ} {entry : DaemonEntry}
    (h : parseEntry fs value index = .ok entry) : entry.Valid := by
  unfold parseEntry at h
  split at h
  · exact parseFields_valid h
  · exact parseFields_valid h
  · cases h

theorem desiredState?_text (state : DesiredState) :
    desiredState? (some (.string state.text)) = some state := by
  cases state <;> rfl

/-- A valid entry is read back, except that its path is looked up again. -/
theorem parseEntry_json {fs : FileSystem} {entry : DaemonEntry} (h : entry.Valid) (index : ℕ) :
    parseEntry fs entry.json index =
      if isCanonicalPath fs entry.cwd then .ok entry else .error (.entry index .realpath) := by
  have hid : (text? (entry.json.member? "id")).filter isOpaqueId = some entry.id := by
    have hmember : text? (entry.json.member? "id") = some entry.id := rfl
    rw [hmember, Option.filter_some, if_pos h.id]
  have hcwd : (text? (entry.json.member? "cwd")).filter isAbsolute = some entry.cwd := by
    have hmember : text? (entry.json.member? "cwd") = some entry.cwd := rfl
    rw [hmember, Option.filter_some, if_pos h.cwd]
  have hname : ((text? (entry.json.member? "name")).filter fun name => trimmed name ≠ "") =
      some entry.name := by
    have hmember : text? (entry.json.member? "name") = some entry.name := rfl
    have hne : trimmed entry.name ≠ "" := by
      rw [h.name]
      exact h.nameNotEmpty
    rw [hmember, Option.filter_some, if_pos (decide_eq_true hne)]
  have hstate : desiredState? (entry.json.member? "desired_state") = some entry.desiredState :=
    desiredState?_text entry.desiredState
  have hcreated : ((number? (entry.json.member? "created_at")).filter fun n => 0 ≤ n) =
      some entry.createdAt := by
    have hmember : number? (entry.json.member? "created_at") = some entry.createdAt := rfl
    rw [hmember, Option.filter_some, if_pos (decide_eq_true h.createdAt)]
  show parseFields fs entry.json index = _
  unfold parseFields
  rw [hid]
  dsimp only
  rw [hcwd]
  dsimp only
  cases hpath : isCanonicalPath fs entry.cwd with
  | false => rfl
  | true =>
    simp only [Bool.not_true, Bool.false_eq_true, if_false, if_true]
    rw [hname]
    dsimp only
    rw [hstate]
    dsimp only
    rw [hcreated, h.name]

theorem parseEntries_valid {fs : FileSystem} {values : List Json} {index : ℕ}
    {entries : List DaemonEntry} (h : parseEntries fs values index = .ok entries) :
    ∀ entry ∈ entries, entry.Valid := by
  induction values generalizing index entries with
  | nil =>
    cases h
    intro entry he
    cases he
  | cons value values ih =>
    unfold parseEntries at h
    split at h
    · cases h
    rename_i first hfirst
    split at h
    · cases h
    rename_i rest hrest
    cases h
    intro entry he
    rcases List.mem_cons.mp he with rfl | he
    · exact parseEntry_valid hfirst
    · exact ih hrest entry he

/-- Valid entries are read back when all their paths are canonical; otherwise the first path
    that is not is the error. -/
theorem parseEntries_json {fs : FileSystem} {entries : List DaemonEntry}
    (h : ∀ entry ∈ entries, entry.Valid) (index : ℕ) :
    parseEntries fs (entries.map DaemonEntry.json) index =
      match entries.findIdx? fun entry => !isCanonicalPath fs entry.cwd with
      | none => .ok entries
      | some offset => .error (.entry (index + offset) .realpath) := by
  induction entries generalizing index with
  | nil => rfl
  | cons entry entries ih =>
    rw [List.map_cons, parseEntries, parseEntry_json (h entry List.mem_cons_self),
      List.findIdx?_cons]
    cases hpath : isCanonicalPath fs entry.cwd with
    | false => rfl
    | true =>
      simp only [if_true, Bool.not_true, Bool.false_eq_true, if_false]
      rw [ih fun e he => h e (List.mem_cons_of_mem _ he)]
      cases entries.findIdx? fun entry => !isCanonicalPath fs entry.cwd with
      | none => rfl
      | some offset =>
        simp only [Option.map_some]
        rw [Nat.add_assoc, Nat.add_comm 1]

/-- Valid entries without duplicates are a registry when all their paths are canonical. -/
theorem validateRegistry_json {registry : DaemonRegistry}
    (hvalid : ∀ entry ∈ registry.daemons, entry.Valid)
    (hduplicate : findDuplicate registry.daemons [] [] = none) (fs : FileSystem) :
    validateRegistry fs registry.json =
      match registry.daemons.findIdx? fun entry => !isCanonicalPath fs entry.cwd with
      | none => .ok registry
      | some index => .error (.entry index .realpath) := by
  have hload : validateRegistry fs registry.json =
      match parseEntries fs (registry.daemons.map DaemonEntry.json) 0 with
      | .error e => .error e
      | .ok daemons =>
        match findDuplicate daemons [] [] with
        | some e => .error e
        | none => .ok ⟨daemons⟩ := by
    unfold validateRegistry DaemonRegistry.json
    rfl
  rw [hload, parseEntries_json hvalid]
  cases registry.daemons.findIdx? fun entry => !isCanonicalPath fs entry.cwd with
  | none =>
    dsimp only
    rw [hduplicate]
  | some index =>
    dsimp only
    rw [Nat.zero_add]

/-- What `saveRegistry` accepts. -/
theorem saveRegistry_eq_ok {fs : FileSystem} {value : Json} {registry : DaemonRegistry}
    (h : saveRegistry fs value = .ok registry) :
    (∀ entry ∈ registry.daemons, entry.Valid) ∧ findDuplicate registry.daemons [] [] = none := by
  unfold saveRegistry validateRegistry at h
  split at h
  · split_ifs at h
    split at h
    · split at h
      · cases h
      rename_i daemons hdaemons
      split at h
      · cases h
      rename_i hduplicate
      cases h
      exact ⟨parseEntries_valid hdaemons, hduplicate⟩
    · cases h
  · cases h

/-- The path is gone or is its own real path. -/
def OwnPath (fs : FileSystem) (entry : DaemonEntry) : Prop :=
  fs entry.cwd = none ∨ fs entry.cwd = some entry.cwd

theorem isCanonicalPath_iff {fs : FileSystem} {entry : DaemonEntry} :
    isCanonicalPath fs entry.cwd = true ↔ OwnPath fs entry := by
  unfold OwnPath
  cases hpath : fs entry.cwd <;> simp [isCanonicalPath, hpath]

/-- A registry that was accepted is loaded again as it was saved, in every file system in which
    each registered path is gone or is its own real path. A path that exists and resolves to
    another one is an error for the whole registry, which names the first such entry. -/
theorem loadRegistry_saved {fs : FileSystem} {value : Json} {registry : DaemonRegistry}
    (hsave : saveRegistry fs value = .ok registry) (fs' : FileSystem) :
    ((∀ entry ∈ registry.daemons, fs' entry.cwd = none ∨ fs' entry.cwd = some entry.cwd) →
      loadRegistry fs' registry.file = .ok registry) ∧
    ((∃ entry ∈ registry.daemons, ∃ realpath, fs' entry.cwd = some realpath ∧
        realpath ≠ entry.cwd) →
      ∃ index entry, registry.daemons[index]? = some entry ∧ ¬ OwnPath fs' entry ∧
        (∀ earlier ∈ registry.daemons.take index, OwnPath fs' earlier) ∧
          loadRegistry fs' registry.file = .error (.entry index .realpath)) := by
  obtain ⟨hvalid, hduplicate⟩ := saveRegistry_eq_ok hsave
  have hload : loadRegistry fs' registry.file = _ := validateRegistry_json hvalid hduplicate fs'
  rw [hload]
  constructor
  · intro hpaths
    have hnone : registry.daemons.findIdx? (fun entry => !isCanonicalPath fs' entry.cwd) = none := by
      refine List.findIdx?_eq_none_iff.mpr fun entry he => ?_
      rw [isCanonicalPath_iff.mpr (hpaths entry he)]
      rfl
    rw [hnone]
  · rintro ⟨entry, he, realpath, hreal, hne⟩
    cases hfind : registry.daemons.findIdx? fun entry => !isCanonicalPath fs' entry.cwd with
    | none =>
      have hcanonical := List.findIdx?_eq_none_iff.mp hfind entry he
      simp [isCanonicalPath, hreal, hne] at hcanonical
    | some index =>
      obtain ⟨hlt, hother, hbefore⟩ := List.findIdx?_eq_some_iff_getElem.mp hfind
      refine ⟨index, registry.daemons[index], List.getElem?_eq_getElem hlt, fun hown => ?_,
        fun earlier hearlier => ?_, rfl⟩
      · rw [isCanonicalPath_iff.mpr hown] at hother
        cases hother
      · obtain ⟨position, hposition, rfl⟩ := List.mem_iff_getElem.mp hearlier
        rw [List.length_take] at hposition
        have hcanonical := hbefore position (by omega)
        rw [List.getElem_take]
        exact isCanonicalPath_iff.mp (by simpa using hcanonical)

/-- Two daemons in directories of their own. -/
def twoDaemons : DaemonRegistry :=
  ⟨[⟨"00000000-0000-4000-8000-000000000001", "/work/a", "a", .running, 0⟩,
    ⟨"00000000-0000-4000-8000-000000000002", "/work/b", "b", .running, 0⟩]⟩

/-- The file system in which both directories are there, and the one in which the first has
    been moved and a symbolic link put in its place. -/
def freshDisk : FileSystem := fun path => some path

def movedDisk : FileSystem := fun path => some (if path = "/work/a" then "/archive/a" else path)

theorem twoDaemons_accepted : saveRegistry freshDisk twoDaemons.json = .ok twoDaemons := by
  have hvalid : ∀ entry ∈ twoDaemons.daemons, entry.Valid := by
    intro entry he
    rcases List.mem_cons.mp he with rfl | he
    · exact ⟨by decide, by decide, by decide, by decide,
        by decide⟩
    · rw [List.mem_singleton.mp he]
      exact ⟨by decide, by decide, by decide, by decide,
        by decide⟩
  have hduplicate : (findDuplicate twoDaemons.daemons [] []).isNone = true := by decide
  have hpaths : (twoDaemons.daemons.findIdx? fun entry => !isCanonicalPath freshDisk entry.cwd) =
      none := by decide +kernel
  rw [saveRegistry, validateRegistry_json hvalid (Option.isNone_iff_eq_none.mp hduplicate), hpaths]

/-- Loaded again while both directories are there, and once the first is gone. -/
theorem twoDaemons_loaded :
    loadRegistry freshDisk twoDaemons.file = .ok twoDaemons ∧
      loadRegistry (fun path => if path = "/work/a" then none else some path) twoDaemons.file =
        .ok twoDaemons := by
  refine ⟨(loadRegistry_saved twoDaemons_accepted freshDisk).1 fun entry _ => Or.inr rfl,
    (loadRegistry_saved twoDaemons_accepted _).1 fun entry _ => ?_⟩
  by_cases hpath : entry.cwd = "/work/a"
  · exact Or.inl (if_pos hpath)
  · exact Or.inr (if_neg hpath)

/-- One directory replaced by a link, and neither daemon is loaded. -/
theorem twoDaemons_not_loaded : saveRegistry freshDisk twoDaemons.json = .ok twoDaemons ∧
    loadRegistry movedDisk twoDaemons.file = .error (.entry 0 .realpath) := by
  refine ⟨twoDaemons_accepted, ?_⟩
  obtain ⟨hvalid, hduplicate⟩ := saveRegistry_eq_ok twoDaemons_accepted
  have hload : loadRegistry movedDisk twoDaemons.file = _ :=
    validateRegistry_json hvalid hduplicate movedDisk
  have hpaths : (twoDaemons.daemons.findIdx? fun entry => !isCanonicalPath movedDisk entry.cwd) =
      some 0 := by decide
  rw [hload, hpaths]

end RemotePi.Daemon
