import Onyxup.Lib.CString
import Onyxup.Lib.Documents
import Onyxup.Lib.Memory

/-!
Contract: the settings that the constructor of the server reads from its
configuration file.

Owns: `parseConfigurationFile`, the eleven read blocks of the constructor with
their exception scopes, the messages they log, and the comparison with what
each setting is meant to be: the value under its own section and key.

Does not own: the parser of the documents, and the conversion of a `double` to
an `int`. Both are parameters.

The blocks of the statistics section read `enable` and `url` from the top level
of the document. A subscript of a mutable document creates what it does not
find, so the document is part of the state.
-/

set_option autoImplicit false

namespace Onyxup.Server

open Onyxup.Lib.CString
open Onyxup.Lib.Documents
open Onyxup.Lib.Memory

/-- The scalars of `nlohmann::json`; a `double` by its bits. -/
inductive Scalar where
  | boolean (value : Bool)
  | numberUnsigned (value : UInt64)
  | numberInteger (value : Int64)
  | numberFloat (bits : UInt64)
  | string (value : Bytes)
deriving DecidableEq

abbrev Json := Document Bytes Scalar

/-- `json::type_error`: a value of another type (302), a subscript of a value
that has no members (305). -/
inductive JsonException where
  | typeError302
  | typeError305
deriving DecidableEq

/-- `get<int>()`. Every number converts, and so does a boolean. -/
def getInt (doubleToInt : UInt64 → Int) : Json → Except JsonException Int
  | .scalar (.numberUnsigned value) => .ok (toInt32 value.toNat)
  | .scalar (.numberInteger value) => .ok (toInt32 value.toInt)
  | .scalar (.numberFloat bits) => .ok (doubleToInt bits)
  | .scalar (.boolean value) => .ok (if value then 1 else 0)
  | _ => .error .typeError302

/-- `get<int>()` assigned to a `size_t`. -/
def getSize (doubleToInt : UInt64 → Int) (value : Json) : Except JsonException Nat :=
  (getInt doubleToInt value).map toSizeT

/-- `get<bool>()`. -/
def getBool : Json → Except JsonException Bool
  | .scalar (.boolean value) => .ok value
  | _ => .error .typeError302

/-- `get<std::string>()`. -/
def getString : Json → Except JsonException Bytes
  | .scalar (.string value) => .ok value
  | _ => .error .typeError302

/-- The fields of `HttpServer` that can be configured. -/
structure Settings where
  numberThreads : Nat
  maxConnection : Nat
  maxInputBufferLength : Nat
  maxOutputBufferLength : Nat
  timeLimitRequestSeconds : Int
  limitLocalTasks : Int
  pathToStaticResources : Bytes
  isCompressStaticResources : Bool
  isCachedStaticResources : Bool
  isStatisticsEnable : Bool
  statisticsUrl : Bytes
deriving DecidableEq

/-- The initial values of the fields in a server with `n` threads. -/
def defaultSettings (n : Nat) : Settings where
  numberThreads := n
  maxConnection := 10000
  maxInputBufferLength := 1024 * 1024 * 2
  maxOutputBufferLength := 1024 * 1024 * 75
  timeLimitRequestSeconds := 60
  limitLocalTasks := 100
  pathToStaticResources := []
  isCompressStaticResources := false
  isCachedStaticResources := true
  isStatisticsEnable := false
  statisticsUrl := ascii "^/onyxup-status-page$"

/-- `parseConfigurationFile`: null when the file cannot be read or parsed. -/
def parseConfigurationFile (parse : Bytes → Option Json) (file : Option Bytes) : Json :=
  (file.bind parse).getD .null

/-- What a read block is about: the section and the key where the setting
belongs, what the log says its type must be, how it is taken from the document,
and the variable it is assigned to. -/
structure Entry (α : Type) where
  part : String
  key : String
  kind : String
  get : Json → Except JsonException α
  current : Settings → α
  assign : α → Settings → Settings
  assign_current : ∀ fields, assign (current fields) fields = fields

namespace Entry

section Server

variable (doubleToInt : UInt64 → Int)

def threads : Entry Nat :=
  ⟨"server", "threads", "целым", getSize doubleToInt, Settings.numberThreads,
    fun value fields => { fields with numberThreads := value }, fun _ => rfl⟩

def maxConnection : Entry Nat :=
  ⟨"server", "max_connection", "целым", getSize doubleToInt, Settings.maxConnection,
    fun value fields => { fields with maxConnection := value }, fun _ => rfl⟩

def maxInputLengthBuffer : Entry Nat :=
  ⟨"server", "max_input_length_buffer", "целым", getSize doubleToInt,
    Settings.maxInputBufferLength,
    fun value fields => { fields with maxInputBufferLength := value }, fun _ => rfl⟩

def maxOutputLengthBuffer : Entry Nat :=
  ⟨"server", "max_output_length_buffer", "целым", getSize doubleToInt,
    Settings.maxOutputBufferLength,
    fun value fields => { fields with maxOutputBufferLength := value }, fun _ => rfl⟩

def timeLimitRequestSeconds : Entry Int :=
  ⟨"server", "time_limit_request_seconds", "целым", getInt doubleToInt,
    Settings.timeLimitRequestSeconds,
    fun value fields => { fields with timeLimitRequestSeconds := value }, fun _ => rfl⟩

def limitLocalTasks : Entry Int :=
  ⟨"server", "limit_local_tasks", "целым", getInt doubleToInt, Settings.limitLocalTasks,
    fun value fields => { fields with limitLocalTasks := value }, fun _ => rfl⟩

end Server

def directory : Entry Bytes :=
  ⟨"static-resources", "directory", "строковым", getString, Settings.pathToStaticResources,
    fun value fields => { fields with pathToStaticResources := value }, fun _ => rfl⟩

def compress : Entry Bool :=
  ⟨"static-resources", "compress", "булевым", getBool, Settings.isCompressStaticResources,
    fun value fields => { fields with isCompressStaticResources := value }, fun _ => rfl⟩

def cache : Entry Bool :=
  ⟨"static-resources", "cache", "булевым", getBool, Settings.isCachedStaticResources,
    fun value fields => { fields with isCachedStaticResources := value }, fun _ => rfl⟩

def enable : Entry Bool :=
  ⟨"statistics", "enable", "булевым", getBool, Settings.isStatisticsEnable,
    fun value fields => { fields with isStatisticsEnable := value }, fun _ => rfl⟩

def url : Entry Bytes :=
  ⟨"statistics", "url", "строковым", getString, Settings.statisticsUrl,
    fun value fields => { fields with statisticsUrl := value }, fun _ => rfl⟩

variable {α : Type}

/-- What the `catch` of the block logs. -/
def message (entry : Entry α) : String :=
  "Ошибка чтения конфигурационного файла. Поле " ++ entry.part ++ " -> " ++ entry.key ++
    " должно быть " ++ entry.kind

/-- Where the setting belongs. -/
def ownPath (entry : Entry α) : List Bytes :=
  [ascii entry.part, ascii entry.key]

/-- The value under a path, when it is there with the right type. -/
def typed (entry : Entry α) (path : List Bytes) (document : Json) : Option α :=
  (document.follow path).bind fun value => (entry.get value).toOption

/-- What is logged about a value that is there with another type. -/
def complaint (entry : Entry α) (document : Json) : List String :=
  (document.follow entry.ownPath).elim [] fun value =>
    if (entry.get value).isOk then [] else [entry.message]

end Entry

/-- The constructor while it reads: the mutable `settings`, the fields, the log. -/
structure Loading where
  document : Json
  fields : Settings
  log : List String

namespace Loading

variable {α : Type}

/-- `try { field = settings[..].get<T>(); } catch (json::exception &ex) { LOGE << ..; }` -/
def tryRead (entry : Entry α) (path : List Bytes) (loading : Loading) : Loading :=
  let accessed := loading.document.access path
  match accessed.2.elim (.error .typeError305) entry.get with
  | .ok value => ⟨accessed.1, entry.assign value loading.fields, loading.log⟩
  | .error _ => ⟨accessed.1, loading.fields, loading.log ++ [entry.message]⟩

/-- The block of a setting that is looked for in the copy of its section first. -/
def readEntry (copy : Json) (entry : Entry α) (loading : Loading) : Loading :=
  if (copy.find (ascii entry.key)).isSome then loading.tryRead entry entry.ownPath
  else loading

/-- `if (settings.find(..) != settings.end()) { json copy = settings[..]; .. }`.
The copy is made outside every `try`. -/
def readSection (part : String) (blocks : Json → Loading → Loading) (loading : Loading) :
    Except JsonException Loading :=
  if (loading.document.find (ascii part)).isSome then
    match loading.document.access [ascii part] with
    | (document, some copy) => .ok (blocks copy { loading with document := document })
    | (_, none) => .error .typeError305
  else .ok loading

def readServer (doubleToInt : UInt64 → Int) : Loading → Except JsonException Loading :=
  readSection "server" fun jsonServer loading =>
    loading
      |> readEntry jsonServer (Entry.threads doubleToInt)
      |> readEntry jsonServer (Entry.maxConnection doubleToInt)
      |> readEntry jsonServer (Entry.maxInputLengthBuffer doubleToInt)
      |> readEntry jsonServer (Entry.maxOutputLengthBuffer doubleToInt)
      |> readEntry jsonServer (Entry.timeLimitRequestSeconds doubleToInt)
      |> readEntry jsonServer (Entry.limitLocalTasks doubleToInt)

def readStaticResources : Loading → Except JsonException Loading :=
  readSection "static-resources" fun jsonStaticResources loading =>
    loading
      |> readEntry jsonStaticResources Entry.directory
      |> readEntry jsonStaticResources Entry.compress
      |> readEntry jsonStaticResources Entry.cache

/-- The blocks of this section subscript the whole document, whatever section
their messages name: `settings["enable"]` and `settings["url"]`. -/
def readStatistics (loading : Loading) : Loading :=
  if (loading.document.find (ascii "statistics")).isSome then
    loading
      |> tryRead Entry.enable [ascii "enable"]
      |> tryRead Entry.url [ascii "url"]
  else loading

end Loading

/-- `if (numberThreads < 2) numberThreads = 2;` -/
def Settings.raiseThreads (fields : Settings) : Settings :=
  if fields.numberThreads < 2 then { fields with numberThreads := 2 } else fields

/-- The constructor from the parsed document to the raised number of threads. -/
def readSettings (doubleToInt : UInt64 → Int) (document : Json) (previous : Settings) :
    Except JsonException Loading := do
  let server ← Loading.readServer doubleToInt ⟨document, previous, []⟩
  let staticResources ← server.readStaticResources
  let statistics := staticResources.readStatistics
  return { statistics with fields := statistics.fields.raiseThreads }

/-! ## What the settings are meant to be -/

/-- The value under its own section and key, or the previous value. -/
def Entry.expected {α : Type} (entry : Entry α) (document : Json) (previous : Settings) : α :=
  (entry.typed entry.ownPath document).getD (entry.current previous)

/-- Every setting by itself, whatever the rest of the document contains. -/
def configured (doubleToInt : UInt64 → Int) (document : Json) (previous : Settings) :
    Settings where
  numberThreads := max 2 ((Entry.threads doubleToInt).expected document previous)
  maxConnection := (Entry.maxConnection doubleToInt).expected document previous
  maxInputBufferLength := (Entry.maxInputLengthBuffer doubleToInt).expected document previous
  maxOutputBufferLength := (Entry.maxOutputLengthBuffer doubleToInt).expected document previous
  timeLimitRequestSeconds :=
    (Entry.timeLimitRequestSeconds doubleToInt).expected document previous
  limitLocalTasks := (Entry.limitLocalTasks doubleToInt).expected document previous
  pathToStaticResources := Entry.directory.expected document previous
  isCompressStaticResources := Entry.compress.expected document previous
  isCachedStaticResources := Entry.cache.expected document previous
  isStatisticsEnable := Entry.enable.expected document previous
  statisticsUrl := Entry.url.expected document previous

/-- What a block is meant to do: assign the expected value, complain about a
value of another type, leave the document alone. -/
abbrev Loading.settle {α : Type} (entry : Entry α) (loading : Loading) : Loading :=
  ⟨loading.document, entry.assign (entry.expected loading.document loading.fields) loading.fields,
    loading.log ++ entry.complaint loading.document⟩

/-! ## The blocks -/

namespace Entry

variable {α : Type} {document : Json}

theorem follow_of_missing (entry : Entry α)
    (missing : document.find (ascii entry.part) = none) :
    document.follow entry.ownPath = none := by
  rw [ownPath, Document.follow, missing, Option.bind_none]

/-- Without its section a setting keeps its value. -/
theorem expected_of_missing (entry : Entry α) {previous : Settings}
    (missing : document.find (ascii entry.part) = none) :
    entry.expected document previous = entry.current previous := by
  rw [expected, typed, entry.follow_of_missing missing, Option.bind_none, Option.getD_none]

end Entry

namespace Loading

variable {α : Type} {document : Json} {fields : Settings} {log : List String}

/-- A block whose reference exists: it assigns a value of the right type, and
complains about any other. -/
theorem tryRead_eq {path : List Bytes} {after value : Json} (entry : Entry α)
    (accessed : document.access path = (after, some value)) :
    tryRead entry path ⟨document, fields, log⟩ =
      ⟨after,
        entry.assign ((entry.get value).toOption.getD (entry.current fields)) fields,
        log ++ if (entry.get value).isOk then [] else [entry.message]⟩ := by
  unfold tryRead
  simp only [accessed, Option.elim_some]
  cases entry.get value with
  | ok result => simp [Except.isOk, Except.toBool, Except.toOption]
  | error fault => simp [Except.isOk, Except.toBool, Except.toOption, entry.assign_current]

/-- A block that looks for its setting in the section first does what it is
meant to do. -/
theorem readEntry_eq {copy : Json} (entry : Entry α)
    (has : document.find (ascii entry.part) = some copy) :
    readEntry copy entry ⟨document, fields, log⟩ = settle entry ⟨document, fields, log⟩ := by
  have followed : document.follow entry.ownPath = copy.find (ascii entry.key) := by
    simp only [Entry.ownPath, Document.follow, has, Option.bind_some, Option.bind_fun_some]
  unfold readEntry settle Entry.expected Entry.typed Entry.complaint
  cases found : copy.find (ascii entry.key) with
  | none =>
      rw [followed, found]
      simp [entry.assign_current]
  | some value =>
      rw [found] at followed
      rw [if_pos Option.isSome_some, followed,
        tryRead_eq entry (Document.access_of_follow followed)]
      rfl

/-- A block that subscripts the whole document finds a value or makes a null,
and a null has no type that a setting can have. -/
theorem tryRead_top (members : List (Bytes × Json)) (entry : Entry α) (key : Bytes)
    (nullFails : (entry.get .null).toOption = none) :
    ∃ after logged, tryRead entry [key] ⟨.object members, fields, log⟩ =
        ⟨.object after,
          entry.assign ((entry.typed [key] (.object members)).getD (entry.current fields)) fields,
          logged⟩ ∧
      ∀ other, other ≠ key →
        (Document.object after).find other = (Document.object members).find other := by
  obtain ⟨after, accessed, others⟩ := Document.access_member members key
  have sameValue :
      (entry.get (((Document.object members).find key).getD .null)).toOption =
        entry.typed [key] (.object members) := by
    simp only [Entry.typed, Document.follow, Option.bind_fun_some]
    cases (Document.object members).find key with
    | none => rw [Option.getD_none, nullFails, Option.bind_none]
    | some value => rw [Option.getD_some, Option.bind_some]
  rw [tryRead_eq entry accessed, sameValue]
  exact ⟨after, _, rfl, others⟩

/-! ## The sections -/

theorem readSection_of_found {part : String} {blocks : Json → Loading → Loading} {copy : Json}
    (has : document.find (ascii part) = some copy) :
    readSection part blocks ⟨document, fields, log⟩ =
      .ok (blocks copy ⟨document, fields, log⟩) := by
  have followed : document.follow [ascii part] = some copy := by
    simp only [Document.follow, has, Option.bind_some]
  simp only [readSection, has, Option.isSome_some, if_true, Document.access_of_follow followed]

theorem readSection_of_missing {part : String} {blocks : Json → Loading → Loading}
    (missing : document.find (ascii part) = none) :
    readSection part blocks ⟨document, fields, log⟩ = .ok ⟨document, fields, log⟩ := by
  simp only [readSection, missing, Option.isSome_none, Bool.false_eq_true, if_false]

/-- Without the section there is nothing to do. -/
theorem settle_of_missing (entry : Entry α) (missing : document.find (ascii entry.part) = none) :
    settle entry ⟨document, fields, log⟩ = ⟨document, fields, log⟩ := by
  have silent : entry.complaint document = [] := by
    rw [Entry.complaint, entry.follow_of_missing missing, Option.elim_none]
  simp only [settle, silent, entry.expected_of_missing missing, entry.assign_current,
    List.append_nil]

/-- The server section settles its six settings, whether it is there or not. -/
theorem readServer_eq (doubleToInt : UInt64 → Int) :
    readServer doubleToInt ⟨document, fields, log⟩ =
      .ok (⟨document, fields, log⟩
        |> settle (Entry.threads doubleToInt)
        |> settle (Entry.maxConnection doubleToInt)
        |> settle (Entry.maxInputLengthBuffer doubleToInt)
        |> settle (Entry.maxOutputLengthBuffer doubleToInt)
        |> settle (Entry.timeLimitRequestSeconds doubleToInt)
        |> settle (Entry.limitLocalTasks doubleToInt)) := by
  cases has : document.find (ascii "server") with
  | none =>
      rw [readServer, readSection_of_missing has]
      rw [settle_of_missing (Entry.threads doubleToInt) has,
        settle_of_missing (Entry.maxConnection doubleToInt) has,
        settle_of_missing (Entry.maxInputLengthBuffer doubleToInt) has,
        settle_of_missing (Entry.maxOutputLengthBuffer doubleToInt) has,
        settle_of_missing (Entry.timeLimitRequestSeconds doubleToInt) has,
        settle_of_missing (Entry.limitLocalTasks doubleToInt) has]
  | some copy =>
      rw [readServer, readSection_of_found has]
      rw [readEntry_eq (Entry.threads doubleToInt) has,
        readEntry_eq (Entry.maxConnection doubleToInt) has,
        readEntry_eq (Entry.maxInputLengthBuffer doubleToInt) has,
        readEntry_eq (Entry.maxOutputLengthBuffer doubleToInt) has,
        readEntry_eq (Entry.timeLimitRequestSeconds doubleToInt) has,
        readEntry_eq (Entry.limitLocalTasks doubleToInt) has]

/-- So does the section of the static resources with its three. -/
theorem readStaticResources_eq :
    readStaticResources ⟨document, fields, log⟩ =
      .ok (⟨document, fields, log⟩
        |> settle Entry.directory |> settle Entry.compress |> settle Entry.cache) := by
  cases has : document.find (ascii "static-resources") with
  | none =>
      rw [readStaticResources, readSection_of_missing has]
      rw [settle_of_missing Entry.directory has, settle_of_missing Entry.compress has,
        settle_of_missing Entry.cache has]
  | some copy =>
      rw [readStaticResources, readSection_of_found has]
      rw [readEntry_eq Entry.directory has, readEntry_eq Entry.compress has,
        readEntry_eq Entry.cache has]

/-- The statistics section, when it is there, takes its two settings from the top
level. The null that a missing `enable` leaves behind does not reach `url`. -/
theorem readStatistics_fields {statistics : Json}
    (has : document.find (ascii "statistics") = some statistics) :
    (readStatistics ⟨document, fields, log⟩).fields =
      { fields with
        isStatisticsEnable :=
          (Entry.enable.typed [ascii "enable"] document).getD fields.isStatisticsEnable
        statisticsUrl := (Entry.url.typed [ascii "url"] document).getD fields.statisticsUrl } := by
  simp only [readStatistics, has, Option.isSome_some, if_true]
  obtain ⟨members, rfl, _⟩ := Document.exists_members_of_find has
  obtain ⟨grown, logged, enabled, others⟩ :=
    tryRead_top members Entry.enable (ascii "enable") rfl
  obtain ⟨_, _, named, _⟩ := tryRead_top grown Entry.url (ascii "url") rfl
  have sameUrl : Entry.url.typed [ascii "url"] (.object grown) =
      Entry.url.typed [ascii "url"] (.object members) := by
    simp only [Entry.typed, Document.follow, others (ascii "url") (by decide)]
  rw [enabled, named, sameUrl]
  rfl

theorem readStatistics_of_missing (missing : document.find (ascii "statistics") = none) :
    readStatistics ⟨document, fields, log⟩ = ⟨document, fields, log⟩ := by
  simp only [readStatistics, missing, Option.isSome_none, Bool.false_eq_true, if_false]

end Loading

/-! ## The whole document -/

theorem Settings.raiseThreads_eq (fields : Settings) :
    fields.raiseThreads = { fields with numberThreads := max 2 fields.numberThreads } := by
  unfold raiseThreads
  split
  next few => rw [Nat.max_eq_left (Nat.le_of_lt few)]
  next enough => rw [Nat.max_eq_right (Nat.le_of_not_lt enough)]

section Document

variable (doubleToInt : UInt64 → Int) (document : Json) (previous : Settings)

/-- The nine settings that are read from their own sections, each settled by itself. -/
def settleSections (loading : Loading) : Loading :=
  loading
    |> Loading.settle (Entry.threads doubleToInt)
    |> Loading.settle (Entry.maxConnection doubleToInt)
    |> Loading.settle (Entry.maxInputLengthBuffer doubleToInt)
    |> Loading.settle (Entry.maxOutputLengthBuffer doubleToInt)
    |> Loading.settle (Entry.timeLimitRequestSeconds doubleToInt)
    |> Loading.settle (Entry.limitLocalTasks doubleToInt)
    |> Loading.settle Entry.directory
    |> Loading.settle Entry.compress
    |> Loading.settle Entry.cache

/-- The two settings that are read from the wrong place. -/
def statisticsRead : Settings :=
  match document.find (ascii "statistics") with
  | none => previous
  | some _ =>
      { previous with
        isStatisticsEnable :=
          (Entry.enable.typed [ascii "enable"] document).getD previous.isStatisticsEnable
        statisticsUrl := (Entry.url.typed [ascii "url"] document).getD previous.statisticsUrl }

/-- The constructor in one line: nine settings are settled, then the statistics
are read and the threads raised. No exception leaves it. -/
theorem readSettings_eq :
    readSettings doubleToInt document previous =
      .ok { (settleSections doubleToInt ⟨document, previous, []⟩).readStatistics with
        fields := (settleSections doubleToInt ⟨document, previous, []⟩).readStatistics.fields
          |>.raiseThreads } := by
  rw [readSettings, Loading.readServer_eq]
  change (Loading.readStaticResources _ >>= _) = _
  rw [Loading.readStaticResources_eq]
  rfl

/-- All settings but the two of the statistics are what they are meant to be. -/
theorem readSettings_fields :
    ∃ loading, readSettings doubleToInt document previous = .ok loading ∧
      loading.fields =
        { configured doubleToInt document previous with
          isStatisticsEnable := (statisticsRead document previous).isStatisticsEnable
          statisticsUrl := (statisticsRead document previous).statisticsUrl } := by
  refine ⟨_, readSettings_eq doubleToInt document previous, ?_⟩
  unfold statisticsRead settleSections
  cases has : document.find (ascii "statistics") with
  | none =>
      rw [Loading.readStatistics_of_missing has, Settings.raiseThreads_eq]
      rfl
  | some statistics =>
      rw [Loading.readStatistics_fields has, Settings.raiseThreads_eq]
      rfl

/-- What the constructor logs when there is no statistics section: the complaints
of the nine other blocks, in their order. -/
theorem readSettings_log (missing : document.find (ascii "statistics") = none) :
    ∃ loading, readSettings doubleToInt document previous = .ok loading ∧
      loading.log =
        (Entry.threads doubleToInt).complaint document ++
        (Entry.maxConnection doubleToInt).complaint document ++
        (Entry.maxInputLengthBuffer doubleToInt).complaint document ++
        (Entry.maxOutputLengthBuffer doubleToInt).complaint document ++
        (Entry.timeLimitRequestSeconds doubleToInt).complaint document ++
        (Entry.limitLocalTasks doubleToInt).complaint document ++
        Entry.directory.complaint document ++ Entry.compress.complaint document ++
        Entry.cache.complaint document := by
  refine ⟨_, readSettings_eq doubleToInt document previous, ?_⟩
  unfold settleSections
  rw [Loading.readStatistics_of_missing missing]
  rfl

-- A file that cannot be read sets nothing.
example (parse : Bytes → Option Json) :
    readSettings doubleToInt (parseConfigurationFile parse none) previous =
      .ok ⟨.null, previous.raiseThreads, []⟩ := rfl

/-- The constructor gives every setting the value it is meant to have. -/
def LoadsIndependently : Prop :=
  ∃ loading, readSettings doubleToInt document previous = .ok loading ∧
    loading.fields = configured doubleToInt document previous

end Document

section Statistics

variable {doubleToInt : UInt64 → Int} {document : Json} {previous : Settings}

theorem loadsIndependently_iff_statistics :
    LoadsIndependently doubleToInt document previous ↔
      (statisticsRead document previous).isStatisticsEnable =
          Entry.enable.expected document previous ∧
        (statisticsRead document previous).statisticsUrl =
          Entry.url.expected document previous := by
  obtain ⟨loading, read, fields⟩ := readSettings_fields doubleToInt document previous
  unfold LoadsIndependently
  constructor
  · rintro ⟨same, readSame, asMeant⟩
    rw [read] at readSame
    cases readSame
    rw [fields] at asMeant
    exact ⟨congrArg Settings.isStatisticsEnable asMeant, congrArg Settings.statisticsUrl asMeant⟩
  · rintro ⟨enable, url⟩
    refine ⟨loading, read, ?_⟩
    rw [fields, enable, url]
    rfl

/-- The condition on one input. -/
theorem loadsIndependently_iff :
    LoadsIndependently doubleToInt document previous ↔
      document.find (ascii "statistics") = none ∨
        ((Entry.enable.typed [ascii "enable"] document).getD previous.isStatisticsEnable =
            Entry.enable.expected document previous ∧
          (Entry.url.typed [ascii "url"] document).getD previous.statisticsUrl =
            Entry.url.expected document previous) := by
  rw [loadsIndependently_iff_statistics]
  unfold statisticsRead
  cases has : document.find (ascii "statistics") with
  | none =>
      have enable : Entry.enable.expected document previous = previous.isStatisticsEnable :=
        Entry.enable.expected_of_missing has
      have url : Entry.url.expected document previous = previous.statisticsUrl :=
        Entry.url.expected_of_missing has
      simp [enable, url]
  | some statistics => simp

end Statistics

private theorem eq_of_getD_eq {α : Type} [Nontrivial α] {left right : Option α}
    (agree : ∀ default, left.getD default = right.getD default) : left = right := by
  cases left with
  | none =>
      cases right with
      | none => rfl
      | some value =>
          obtain ⟨other, differs⟩ := exists_ne value
          exact absurd (agree other) differs
  | some value =>
      cases right with
      | none =>
          obtain ⟨other, differs⟩ := exists_ne value
          exact absurd (agree other).symm differs
      | some same => exact congrArg some (agree value)

/-- **When the settings load independently.** For every document and all previous
settings: exactly when the document has no statistics section, or the top level
and the section agree about `enable` and about `url`, where a value that is not
there with the right type counts as the previous one. For a document as such, under
all previous settings: when they hold the same boolean or both none, and the same
string or both none. -/
theorem settings_load_independently_iff (doubleToInt : UInt64 → Int) (document : Json) :
    (∀ previous, LoadsIndependently doubleToInt document previous ↔
      document.find (ascii "statistics") = none ∨
        ((Entry.enable.typed [ascii "enable"] document).getD previous.isStatisticsEnable =
            (Entry.enable.typed [ascii "statistics", ascii "enable"] document).getD
              previous.isStatisticsEnable ∧
          (Entry.url.typed [ascii "url"] document).getD previous.statisticsUrl =
            (Entry.url.typed [ascii "statistics", ascii "url"] document).getD
              previous.statisticsUrl)) ∧
      ((∀ previous, LoadsIndependently doubleToInt document previous) ↔
        document.find (ascii "statistics") = none ∨
          (Entry.enable.typed [ascii "enable"] document =
              Entry.enable.typed [ascii "statistics", ascii "enable"] document ∧
            Entry.url.typed [ascii "url"] document =
              Entry.url.typed [ascii "statistics", ascii "url"] document)) := by
  refine ⟨fun previous => loadsIndependently_iff, ?_, ?_⟩
  · intro always
    cases has : document.find (ascii "statistics") with
    | none => exact .inl rfl
    | some statistics =>
        have agree (previous : Settings) :=
          (loadsIndependently_iff.mp (always previous)).resolve_left (by simp [has])
        have : Nontrivial Bytes := ⟨[], [0], by decide⟩
        refine .inr ⟨eq_of_getD_eq fun default => ?_, eq_of_getD_eq fun default => ?_⟩
        · exact (agree { defaultSettings 2 with isStatisticsEnable := default }).1
        · exact (agree { defaultSettings 2 with statisticsUrl := default }).2
  · intro meets previous
    rw [loadsIndependently_iff]
    rcases meets with missing | ⟨enable, url⟩
    · exact .inl missing
    · refine .inr ⟨?_, ?_⟩
      · rw [enable]
        rfl
      · rw [url]
        rfl

/-- `{"statistics": {"enable": true, "url": "^/status$"}}`. -/
def statisticsDocument : Json :=
  .object [(ascii "statistics", .object [
    (ascii "enable", .scalar (.boolean true)),
    (ascii "url", .scalar (.string (ascii "^/status$")))])]

/-- A server that is told to keep statistics does not. -/
theorem statistics_section_not_read :
    ¬ LoadsIndependently (fun _ => 0) statisticsDocument (defaultSettings 8) := by
  rintro ⟨loading, read, asMeant⟩
  have disabled : (readSettings (fun _ => 0) statisticsDocument (defaultSettings 8)).map
      (fun loading => loading.fields.isStatisticsEnable) = .ok false := by decide
  have meant : (configured (fun _ => 0) statisticsDocument
      (defaultSettings 8)).isStatisticsEnable = true := by decide
  rw [read] at disabled
  rw [← asMeant] at meant
  cases disabled.symm.trans (congrArg Except.ok meant)

end Onyxup.Server
