import RelayDescriptor.Command.Run
import RelayDescriptor.Proofs.Command.Names

/-!
# Loading configuration files

The first configuration file that does not hold a document decides how a run ends.  If it cannot
be read, or its text is not in the notation, the run ends with a configuration error before any
input is looked at.  If its bytes are not even text, that escapes from the run.  The reader of
documents may be any one that finds nothing but documents and texts that are not in the notation.
-/

namespace RelayDescriptor

namespace Configuration

variable {tools : Toolkit} {environment : Environment} {name : Text} {names : List Text}
  {fault : ConfigurationFault}

/-- The file under a name holds a document. -/
def HoldsDocument (tools : Toolkit) (environment : Environment) (name : Text) : Prop :=
  ∃ content document, environment.entry name = .file content ∧ Utf8.flaw? content = none ∧
    tools.document (withLineFeeds (Utf8.decode content)) = .ok document

/-- What is wrong with the file under a name. -/
inductive HasFault (tools : Toolkit) (environment : Environment) (name : Text) :
    ConfigurationFault → Prop
  | unreadable {error : SystemError} (failed : (environment.entry name).read = .error error) :
      HasFault tools environment name (.unreadable name error)
  | undecodable {content : List UInt8} {flaw : Utf8.Flaw}
      (found : environment.entry name = .file content)
      (undecodable : Utf8.flaw? content = some flaw) :
      HasFault tools environment name (.undecodable flaw)
  | malformed {content : List UInt8} {description : String}
      (found : environment.entry name = .file content) (decodable : Utf8.flaw? content = none)
      (flawed : tools.document (withLineFeeds (Utf8.decode content)) =
        .error (.malformed description)) :
      HasFault tools environment name (.malformed name description)
  | foreign {content : List UInt8} {className message : String}
      (found : environment.entry name = .file content) (decodable : Utf8.flaw? content = none)
      (flawed : tools.document (withLineFeeds (Utf8.decode content)) =
        .error (.foreign className message)) :
      HasFault tools environment name (.foreign className message)

theorem file_of_read {entry : FileEntry} {content : List UInt8} (found : entry.read = .ok content) :
    entry = .file content := by
  cases entry with
  | file other =>
      cases found
      rfl
  | _ => cases found

theorem document_of_file {content : List UInt8} (found : environment.entry name = .file content)
    (decodable : Utf8.flaw? content = none) :
    document tools environment name =
      (tools.document (withLineFeeds (Utf8.decode content))).mapError
        (ConfigurationFault.ofFlaw name) := by
  rw [document, found]
  simp only [FileEntry.read, decodable]

theorem document_eq_ok_iff :
    (∃ content, document tools environment name = .ok content) ↔
      HoldsDocument tools environment name := by
  constructor
  · rintro ⟨result, accepted⟩
    rw [document.eq_def] at accepted
    split at accepted
    next => cases accepted
    next content found =>
      split at accepted
      next => cases accepted
      next decodable =>
        exact ⟨content, result, file_of_read found, decodable, mapError_eq_ok_iff.mp accepted⟩
  · rintro ⟨content, result, found, decodable, read⟩
    rw [document_of_file found decodable, read]
    exact ⟨result, rfl⟩

theorem document_eq_error_iff :
    document tools environment name = .error fault ↔ HasFault tools environment name fault := by
  constructor
  · intro refused
    rw [document.eq_def] at refused
    split at refused
    next error failed =>
      cases refused
      exact .unreadable failed
    next content found =>
      have found := file_of_read found
      split at refused
      next flaw undecodable =>
        cases refused
        exact .undecodable found undecodable
      next decodable =>
        obtain ⟨flaw, flawed, rfl⟩ := mapError_eq_error_iff.mp refused
        cases flaw with
        | malformed description => exact .malformed found decodable flawed
        | foreign className message => exact .foreign found decodable flawed
  · intro faulty
    cases faulty with
    | unreadable failed => rw [document, failed]
    | undecodable found undecodable =>
        rw [document, found]
        simp only [FileEntry.read, undecodable]
    | malformed found decodable flawed =>
        rw [document_of_file found decodable, flawed]
        rfl
    | foreign found decodable flawed =>
        rw [document_of_file found decodable, flawed]
        rfl

/-! ## Files one after the other -/

/-- The first file that does not hold a document has a fault. -/
def FirstFault (tools : Toolkit) (environment : Environment) (names : List Text)
    (fault : ConfigurationFault) : Prop :=
  ∃ before name after, names = before ++ name :: after ∧
    (∀ earlier ∈ before, HoldsDocument tools environment earlier) ∧
      HasFault tools environment name fault

theorem merged_eq_ok_iff (layer : Layer) :
    (∃ result, merged (document tools environment) layer names = .ok result) ↔
      ∀ name ∈ names, HoldsDocument tools environment name := by
  induction names generalizing layer with
  | nil => simp [merged]
  | cons name names induction =>
      rw [List.forall_mem_cons, ← document_eq_ok_iff, merged]
      cases document tools environment name with
      | error fault => simp
      | ok document => simpa using induction _

theorem HasFault.not_holdsDocument (faulty : HasFault tools environment name fault) :
    ¬HoldsDocument tools environment name := by
  intro holds
  obtain ⟨document, accepted⟩ := document_eq_ok_iff.mpr holds
  rw [document_eq_error_iff.mpr faulty] at accepted
  cases accepted

theorem firstFault_cons_of_hasFault {other : ConfigurationFault}
    (faulty : HasFault tools environment name fault) :
    FirstFault tools environment (name :: names) other ↔ fault = other := by
  constructor
  · rintro ⟨before, found, after, split, documents, also⟩
    cases before with
    | nil =>
        obtain ⟨rfl, rfl⟩ := List.cons.inj split
        exact Except.error.inj
          ((document_eq_error_iff.mpr faulty).symm.trans (document_eq_error_iff.mpr also))
    | cons first before =>
        obtain ⟨rfl, rfl⟩ := List.cons.inj split
        exact absurd (documents name List.mem_cons_self) faulty.not_holdsDocument
  · rintro rfl
    exact ⟨[], name, names, rfl, by simp, faulty⟩

theorem firstFault_cons_of_holdsDocument (here : HoldsDocument tools environment name) :
    FirstFault tools environment (name :: names) fault ↔
      FirstFault tools environment names fault := by
  constructor
  · rintro ⟨before, found, after, split, documents, faulty⟩
    cases before with
    | nil =>
        obtain ⟨rfl, rfl⟩ := List.cons.inj split
        exact absurd here faulty.not_holdsDocument
    | cons first before =>
        obtain ⟨rfl, rfl⟩ := List.cons.inj split
        exact ⟨before, found, after, rfl, (List.forall_mem_cons.mp documents).2, faulty⟩
  · rintro ⟨before, found, after, rfl, documents, faulty⟩
    exact ⟨name :: before, found, after, rfl, List.forall_mem_cons.mpr ⟨here, documents⟩, faulty⟩

theorem merged_eq_error_iff {layer : Layer} :
    merged (document tools environment) layer names = .error fault ↔
      FirstFault tools environment names fault := by
  induction names generalizing layer with
  | nil => simp [merged, FirstFault]
  | cons name names induction =>
      rw [merged]
      cases accepted : document tools environment name with
      | error other =>
          rw [firstFault_cons_of_hasFault (document_eq_error_iff.mp accepted)]
          dsimp only
          rw [Except.error.injEq]
      | ok document =>
          rw [firstFault_cons_of_holdsDocument (document_eq_ok_iff.mp ⟨document, accepted⟩)]
          exact induction

theorem document_congr {other : Environment} (same : other.entry name = environment.entry name) :
    document tools other name = document tools environment name := by
  rw [document, document, same]

section Agreeing

variable {ε : Type} {read other : Text → Except ε (OrderedMap Text Setting)}

theorem merged_congr (same : ∀ name ∈ names, other name = read name) (layer : Layer) :
    merged other layer names = merged read layer names := by
  induction names generalizing layer with
  | nil => rfl
  | cons name names induction =>
      obtain ⟨here, later⟩ := List.forall_mem_cons.mp same
      simp only [merged, here, induction later]

theorem remarks_congr (same : ∀ name ∈ names, other name = read name) :
    remarks other names = remarks read names := by
  induction names with
  | nil => rfl
  | cons name names induction =>
      obtain ⟨here, later⟩ := List.forall_mem_cons.mp same
      simp only [remarks, here, induction later]

end Agreeing

theorem load_eq_ok_iff :
    (∃ settings, load (document tools environment) names = .ok settings) ↔
      ∀ name ∈ names, HoldsDocument tools environment name := by
  rw [← merged_eq_ok_iff Layer.defaults, load]
  cases merged (document tools environment) Layer.defaults names <;> simp [Except.map]

theorem load_eq_error_iff :
    load (document tools environment) names = .error fault ↔
      FirstFault tools environment names fault := by
  rw [load, map_eq_error_iff, merged_eq_error_iff]

theorem firstFault_unique {other : ConfigurationFault}
    (first : FirstFault tools environment names fault)
    (also : FirstFault tools environment names other) : fault = other := by
  have same := (load_eq_error_iff.mpr first).symm.trans (load_eq_error_iff.mpr also)
  exact Except.error.inj same

/-- Where the reader of documents only refuses texts, a file that can be used neither is not text,
nor cannot be read, nor is not in the notation. -/
theorem HasFault.not_foreign (expected : tools.ReadsOrRefuses) {className message : String} :
    ¬HasFault tools environment name (.foreign className message) := by
  intro faulty
  cases faulty with
  | foreign _ _ flawed => exact expected _ _ _ flawed

end Configuration

theorem ExitStatus.eq_configuration_of_code {status : ExitStatus} (same : status.code = 78) :
    status = .configuration := by
  cases status with
  | configuration => rfl
  | _ => cases same

namespace Run

variable {tools : Toolkit} {environment other : Environment} {options : ParseOptions}
  {settings : Settings} {names : List Text} {fault : ConfigurationFault}

/-! ## What a run depends on before it reads inputs -/

/-- In another environment there are the same configuration files; whatever is there to be parsed
may be different. -/
structure SharesConfiguration (options : ParseOptions) (environment other : Environment) :
    Prop where
  directory : other.directory = environment.directory
  discoverable : ∀ name ∈ Configuration.discoverable,
    other.entry (FileName.within environment.directory name) =
      environment.entry (FileName.within environment.directory name)
  named : ∀ name ∈ options.configuration,
    other.entry (FileName.normal name) = environment.entry (FileName.normal name)

theorem SharesConfiguration.refl (options : ParseOptions) (environment : Environment) :
    SharesConfiguration options environment environment :=
  ⟨rfl, fun _ _ => rfl, fun _ _ => rfl⟩

/-- The remarks made until configuration files with these names are loaded. -/
def loadingRemarks (tools : Toolkit) (environment : Environment) (options : ParseOptions)
    (names : List Text) : List LogEntry :=
  (if options.noConfiguration then [] else Configuration.discoveryRemarks environment) ++
    Configuration.remarks (Configuration.document tools environment) names

namespace SharesConfiguration

variable (shares : SharesConfiguration options environment other)

include shares

theorem discovered : Configuration.discovered other = Configuration.discovered environment := by
  rw [Configuration.discovered, Configuration.discovered, shares.directory]
  apply FileName.select_congr
  intro name member
  obtain ⟨found, inside, rfl⟩ := List.mem_map.mp member
  rw [shares.discoverable found inside]

theorem configurationFiles :
    configurationFiles other options = Run.configurationFiles environment options := by
  rw [Run.configurationFiles, Run.configurationFiles, shares.discovered]

theorem document_of_mem (listed : Run.configurationFiles environment options = .ok names) :
    ∀ name ∈ names, Configuration.document tools other name =
      Configuration.document tools environment name := by
  intro name member
  apply Configuration.document_congr
  obtain ⟨found, discovered, rfl⟩ := map_eq_ok_iff.mp listed
  rcases List.mem_append.mp member with inside | given
  · split at discovered
    next =>
      cases discovered
      cases inside
    next =>
      obtain ⟨bare, among, rfl⟩ :=
        List.mem_map.mp (((FileName.of_select discovered).2 name).mp inside).1
      exact shares.discoverable bare among
  · obtain ⟨bare, among, rfl⟩ := List.mem_map.mp given
    exact shares.named bare among

theorem load (listed : Run.configurationFiles environment options = .ok names) :
    Configuration.load (Configuration.document tools other) names =
      Configuration.load (Configuration.document tools environment) names := by
  rw [Configuration.load, Configuration.load,
    Configuration.merged_congr (shares.document_of_mem listed)]

theorem loadingRemarks (listed : Run.configurationFiles environment options = .ok names) :
    loadingRemarks tools other options names =
      Run.loadingRemarks tools environment options names := by
  rw [Run.loadingRemarks, Run.loadingRemarks,
    Configuration.remarks_congr (shares.document_of_mem listed), Configuration.discoveryRemarks,
    Configuration.discoveryRemarks, shares.discovered, shares.directory]

end SharesConfiguration

/-! ## How a run ends by its configuration -/

/-- The text of the remarks made until the configuration files are loaded. -/
def loadingLog (tools : Toolkit) (environment : Environment) (options : ParseOptions)
    (names : List Text) (threshold : Int) : Text :=
  logText threshold fun _ => loadingRemarks tools environment options names

/-- The response of a run that is stopped. -/
def stopped (tools : Toolkit) (log : Text) (styled : Bool) : Stop → Response
  | .error error => ⟨error.status, [], log ++ errorText tools styled error.message, none⟩
  | .escape escape => ⟨.failure, [], log, some escape⟩

theorem readings_of_names (listed : configurationFiles environment options = .ok names) :
    readings tools environment options =
      ((Configuration.load (Configuration.document tools environment) names).mapError
        configurationStop).bind fun settings =>
          (inputs environment options.paths).map fun blobs =>
            blobs.map (readingOf options settings) := by
  rw [readings, listed]
  rfl

/-- A file that cannot be loaded stops the run. -/
theorem parse_of_fault (listed : configurationFiles environment options = .ok names)
    (failed : Configuration.load (Configuration.document tools environment) names = .error fault)
    (styled : Bool) (verbosity threshold : Int) :
    parse tools environment styled verbosity threshold options =
      stopped tools (loadingLog tools environment options names threshold) styled
        (configurationStop fault) := by
  have stops : readings tools environment options = .error (configurationStop fault) := by
    rw [readings_of_names listed, failed]
    rfl
  have without : parseOutcomes tools environment options = .error (configurationStop fault) := by
    rw [parseOutcomes, stops]
    rfl
  have remarks : parseRemarks tools environment options =
      loadingRemarks tools environment options names := by
    simp only [parseRemarks, stops, without, listed, loadingRemarks, List.append_nil]
  rw [parse, without, remarks]
  cases configurationStop fault <;> rfl

theorem readings_of_load (listed : configurationFiles environment options = .ok names)
    (loaded : Configuration.load (Configuration.document tools environment) names =
      .ok settings) :
    readings tools environment options = (inputs environment options.paths).map
      fun blobs => blobs.map (readingOf options settings) := by
  rw [readings_of_names listed, loaded]
  rfl

/-- The run goes on with the settings of all configuration files. -/
def GoesOn (tools : Toolkit) (environment : Environment) (options : ParseOptions) : Prop :=
  ∃ names settings, configurationFiles environment options = .ok names ∧
    Configuration.load (Configuration.document tools environment) names = .ok settings ∧
      readings tools environment options = (inputs environment options.paths).map
        fun blobs => blobs.map (readingOf options settings)

/-- The run ends with a configuration error, whatever there is to be parsed. -/
def EndsByConfiguration (tools : Toolkit) (environment : Environment) (options : ParseOptions) :
    Prop :=
  ∃ (names : List Text) (error : RunError), configurationFiles environment options = .ok names ∧
    ∀ other, SharesConfiguration options environment other → ∀ styled verbosity threshold,
      let response := parse tools other styled verbosity threshold options
      response.status.code = 78 ∧ response.output = [] ∧ response.escape = none ∧
        response.errors = loadingLog tools environment options names threshold ++
          errorText tools styled error.message

theorem goesOn_iff (listed : configurationFiles environment options = .ok names) :
    GoesOn tools environment options ↔
      ∀ name ∈ names, Configuration.HoldsDocument tools environment name := by
  rw [← Configuration.load_eq_ok_iff]
  constructor
  · rintro ⟨others, settings, also, loaded, _⟩
    cases listed.symm.trans also
    exact ⟨settings, loaded⟩
  · rintro ⟨settings, loaded⟩
    exact ⟨names, settings, listed, loaded, readings_of_load listed loaded⟩

theorem parse_of_firstFault (listed : configurationFiles environment options = .ok names)
    (first : Configuration.FirstFault tools environment names fault)
    (shares : SharesConfiguration options environment other) (styled : Bool)
    (verbosity threshold : Int) :
    parse tools other styled verbosity threshold options =
      stopped tools (loadingLog tools environment options names threshold) styled
        (configurationStop fault) := by
  have failed := Configuration.load_eq_error_iff.mpr first
  rw [← shares.load listed] at failed
  rw [parse_of_fault (shares.configurationFiles.trans listed) failed, loadingLog, loadingLog,
    shares.loadingRemarks listed]

theorem endsByConfiguration_of_error (listed : configurationFiles environment options = .ok names)
    (first : Configuration.FirstFault tools environment names fault) {error : RunError}
    (stops : configurationStop fault = .error error) (sort : error.status = .configuration) :
    EndsByConfiguration tools environment options := by
  refine ⟨names, error, listed, ?_⟩
  intro other shares styled verbosity threshold
  rw [parse_of_firstFault listed first shares, stops, stopped, sort]
  exact ⟨rfl, rfl, rfl, rfl⟩

theorem status_of_blobs {input : List UInt8} {paths : List Text} {error : RunError}
    (failed : blobs environment input paths = .error error) : error.status = .io := by
  induction paths generalizing input with
  | nil => cases failed
  | cons path paths induction =>
      rw [blobs] at failed
      split at failed
      next => exact induction (map_eq_error_iff.mp failed)
      next =>
        split at failed
        next =>
          cases failed
          rfl
        next => exact induction (map_eq_error_iff.mp failed)

theorem status_of_inputs {paths : List Text} {error : RunError}
    (failed : inputs environment paths = .error (.error error)) :
    error.status = .noInput ∨ error.status = .io := by
  rw [inputs] at failed
  split at failed
  next => cases failed
  next =>
    obtain ⟨other, failed, same⟩ := mapError_eq_error_iff.mp failed
    cases same
    exact .inr (status_of_blobs failed)
  next =>
    cases failed
    exact .inl rfl

theorem status_of_outcomes {readings : List Reading} {error : RunError}
    (failed : outcomes readings = .error (.error error)) : error.status = .software := by
  induction readings with
  | nil => cases failed
  | cons reading readings induction =>
      rw [outcomes] at failed
      split at failed
      next interruption _ =>
        cases interruption with
        | undefinable definition =>
            cases failed
            rfl
        | digitLimit count => cases failed
        | notAscii flaw => cases failed
        | noList typeName => cases failed
      next => exact induction (map_eq_error_iff.mp failed)

/-- Only configuration files make a run end with a configuration error. -/
theorem status_ne_configuration (listed : configurationFiles environment options = .ok names)
    (loaded : Configuration.load (Configuration.document tools environment) names = .ok settings)
    (styled : Bool) (verbosity threshold : Int) :
    (parse tools environment styled verbosity threshold options).status ≠ .configuration := by
  rw [parse]
  dsimp only
  split
  next error failed =>
    rw [parseOutcomes, readings_of_load listed loaded] at failed
    rcases bind_eq_error_iff.mp failed with failed | ⟨readings, _, failed⟩
    · rcases status_of_inputs (map_eq_error_iff.mp failed) with same | same
      · simp [same]
      · simp [same]
    · simp [status_of_outcomes failed]
  next => simp
  next outcomes _ => split <;> simp

theorem endsByConfiguration_iff (expected : tools.ReadsOrRefuses)
    (listed : configurationFiles environment options = .ok names) :
    EndsByConfiguration tools environment options ↔
      ∃ fault, Configuration.FirstFault tools environment names fault ∧
        ∀ flaw, fault ≠ .undecodable flaw := by
  constructor
  · rintro ⟨_, error, _, ends⟩
    have code := (ends environment (.refl options environment) false 0 0).1
    cases loaded : Configuration.load (Configuration.document tools environment) names with
    | ok settings =>
        exact absurd (ExitStatus.eq_configuration_of_code code)
          (status_ne_configuration listed loaded false 0 0)
    | error fault =>
        refine ⟨fault, Configuration.load_eq_error_iff.mp loaded, ?_⟩
        rintro flaw rfl
        rw [parse_of_fault listed loaded] at code
        cases code
  · rintro ⟨fault, first, decodable⟩
    cases fault with
    | unreadable name error => exact endsByConfiguration_of_error listed first rfl rfl
    | malformed name description => exact endsByConfiguration_of_error listed first rfl rfl
    | undecodable flaw => exact absurd rfl (decodable flaw)
    | foreign className message =>
        obtain ⟨_, _, _, _, _, faulty⟩ := first
        exact absurd faulty (Configuration.HasFault.not_foreign expected)

/-- Suppose that every text is a settings document or is not in the notation.  Then a run goes on
with the settings of its configuration files if all of them hold documents.  Else the first one that
does not decides: unless it can be read and is not UTF-8, the run ends with a configuration error
and nothing is read that is to be parsed.  If it is not UTF-8 that escapes from the run. -/
theorem configuration_decides (tools : Toolkit) (expected : tools.ReadsOrRefuses)
    {environment : Environment} {options : ParseOptions} {names : List Text}
    (listed : configurationFiles environment options = .ok names) :
    (GoesOn tools environment options ↔
        ∀ name ∈ names, Configuration.HoldsDocument tools environment name) ∧
      (EndsByConfiguration tools environment options ↔
        ∃ fault, Configuration.FirstFault tools environment names fault ∧
          ∀ flaw, fault ≠ .undecodable flaw) ∧
      (GoesOn tools environment options ∨ EndsByConfiguration tools environment options ↔
        ∀ flaw, ¬Configuration.FirstFault tools environment names (.undecodable flaw)) ∧
      ∀ flaw, Configuration.FirstFault tools environment names (.undecodable flaw) →
        ∀ other, SharesConfiguration options environment other →
          ∀ styled verbosity threshold,
            parse tools other styled verbosity threshold options =
              ⟨.failure, [], loadingLog tools environment options names threshold,
                some (.undecodable flaw)⟩ := by
  refine ⟨goesOn_iff listed, endsByConfiguration_iff expected listed, ?_, ?_⟩
  · rw [goesOn_iff listed, endsByConfiguration_iff expected listed]
    constructor
    · rintro (holds | ⟨fault, first, decodable⟩) flaw also
      · obtain ⟨settings, loaded⟩ := Configuration.load_eq_ok_iff.mpr holds
        rw [Configuration.load_eq_error_iff.mpr also] at loaded
        cases loaded
      · exact decodable flaw (Configuration.firstFault_unique first also)
    · intro each
      cases loaded : Configuration.load (Configuration.document tools environment) names with
      | ok settings => exact .inl (Configuration.load_eq_ok_iff.mp ⟨settings, loaded⟩)
      | error fault =>
          have first := Configuration.load_eq_error_iff.mp loaded
          refine .inr ⟨fault, first, ?_⟩
          rintro flaw rfl
          exact each flaw first
  · intro flaw first other shares styled verbosity threshold
    rw [parse_of_firstFault listed first shares]
    rfl

/-! ## A reader of few documents -/

/-- Tools that read one document, and take every other text for one that ends too early. -/
def sampleTools : Toolkit where
  document := fun text =>
    if text = "a=1".toList then .ok [("a".toList, .integer 1)]
    else .error (.malformed "Unexpected end of file at line 1 col 2")
  request := fun _ _ => .ok .help
  help := []
  styling := fun _ word => word
  plain := id

theorem readsOrRefuses_sampleTools : sampleTools.ReadsOrRefuses := by
  intro text className message
  rw [sampleTools]
  dsimp only
  split <;> simp

/-- A list without a key is not in the notation, in the second of two files and whatever there is on
standard input; a byte that begins no character is not even text. -/
theorem configuration_decides_second :
    let environment : Environment := ⟨[], fun name =>
      if name = ['a'] then .file [0x61, 0x3D, 0x31] else if name = ['b'] then .file [0x5B, 0x31]
      else if name = ['c'] then .file [0xFF] else .missing, ['/'], [], false⟩
    let options : List Text → ParseOptions := fun names => ⟨[], false, none, names, true, .text⟩
    (parse sampleTools { environment with input := [0x40] } false 0 50
        (options [['a'], ['b']])).status.code = 78 ∧
      (parse sampleTools environment false 0 50 (options [['a'], ['c']])).escape =
        some (.undecodable ⟨0, [0xFF], .invalidStart⟩) := by
  intro environment options
  have holds : ∀ earlier ∈ [['a']],
      Configuration.HoldsDocument sampleTools environment earlier := by
    intro earlier member
    cases List.mem_singleton.mp member
    exact ⟨_, _, rfl, rfl, rfl⟩
  have second (name : Text) : configurationFiles environment (options [['a'], name]) =
      .ok ([['a'], name].map FileName.normal) := rfl
  obtain ⟨_, ends, _⟩ :=
    configuration_decides sampleTools readsOrRefuses_sampleTools (second ['b'])
  obtain ⟨_, _, _, escapes⟩ :=
    configuration_decides sampleTools readsOrRefuses_sampleTools (second ['c'])
  constructor
  · obtain ⟨_, error, _, each⟩ := ends.mpr
      ⟨_, ⟨[['a']], ['b'], [], rfl, holds, .malformed rfl rfl rfl⟩, nofun⟩
    exact (each _ ⟨rfl, fun _ _ => rfl, fun _ _ => rfl⟩ false 0 50).1
  · rw [escapes _ ⟨[['a']], ['c'], [], rfl, holds, .undecodable rfl rfl⟩ environment (.refl _ _)]

/-- A configuration file that is not UTF-8 is no configuration error. -/
theorem not_endsByConfiguration_undecodable :
    let environment : Environment := ⟨[], fun name =>
      if name = ['c'] then .file [0xFF] else .missing, ['/'], [], false⟩
    let options : ParseOptions := ⟨[], false, none, [['c']], true, .text⟩
    sampleTools.ReadsOrRefuses ∧
      ¬(GoesOn sampleTools environment options ∨
        EndsByConfiguration sampleTools environment options) ∧
      parse sampleTools environment false 0 50 options =
        ⟨.failure, [], [], some (.undecodable ⟨0, [0xFF], .invalidStart⟩)⟩ := by
  intro environment options
  have response : parse sampleTools environment false 0 50 options =
      ⟨.failure, [], [], some (.undecodable ⟨0, [0xFF], .invalidStart⟩)⟩ := rfl
  refine ⟨readsOrRefuses_sampleTools, ?_, response⟩
  rintro (⟨names, settings, listed, loaded, _⟩ | ⟨names, error, listed, ends⟩)
  · cases listed
    cases loaded
  · have code := (ends environment (.refl _ _) false 0 50).1
    rw [response] at code
    cases code

end Run

end RelayDescriptor
