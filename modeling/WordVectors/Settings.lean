import WordVectors.Decimal.Shortest
import WordVectors.Window

/-!
# Settings

Sizes, the byte order and the search backend have defaults that environment variables override.
The settings can be loaded although they are of no use; the issues say why they are not.

## Main definitions

* `Settings`: the settings
* `Settings.load`: the settings under an environment
* `Settings.issues`: what is wrong with the settings
* `Settings.Usable`: the settings without issues
* `Backend`: the ways to search a model
-/

namespace WordVectors

/-! ## Backends -/

/-- How a model is searched. -/
inductive Backend where
  /-- Every score is computed from the stored vectors. -/
  | direct
  /-- Scores are computed from a normalized copy of the vectors. -/
  | normalized
deriving DecidableEq, Repr

namespace Backend

/-- The name of a backend. -/
def name : Backend → String
  | direct => "memory"
  | normalized => "faiss"

/-- The backend with a given name. -/
def ofName? (name : String) : Option Backend :=
  [direct, normalized].find? fun backend => backend.name == name

/-- The wording of the failure to find a backend. -/
def unknownMessage (name : String) : String := s!"Unknown search backend: {name}"

end Backend

/-! ## Settings -/

/-- **The settings.** -/
structure Settings where
  /-- The greatest size of a window over a file, in octets. -/
  windowLimit : Int
  /-- The greatest size of a segment, in numbers. -/
  segmentCapacity : Int
  /-- How far a window moves at a time, in octets. -/
  stride : Int
  /-- The least time between two progress lines, in seconds. -/
  progressInterval : Binary64
  /-- The name of the byte order of binary models. -/
  byteOrder : String
  backend : String
  /-- Whether the slow tests are run. -/
  runSlowTests : Bool
deriving DecidableEq

/-- Why the settings cannot be loaded. -/
inductive SettingsError where
  /-- A size is no integer. -/
  | size (text : String) (fault : Numeral.IntFault)
  /-- A time is no number. -/
  | time (text : String)
deriving DecidableEq, Repr

/-- The wording of a settings error. -/
def SettingsError.message : SettingsError → String
  | size text fault => fault.message text.toList
  | time text => Numeral.realMessage text.toList

namespace Settings

/-- The settings without an environment. -/
def default : Settings where
  windowLimit := 0x7FFFFFFF
  segmentCapacity := 0x7FFFFFFF / 8
  stride := 0x40000000
  progressInterval := .ofRatio false 1 1
  byteOrder := "little"
  backend := "memory"
  runSlowTests := false

/-- The value of a variable; of several of that name the last counts. -/
def lookup? (env : List (String × String)) (name : String) : Option String :=
  env.reverse.lookup name

/-- The integer that a variable holds. -/
def readSize (env : List (String × String)) (name : String) (default : Int) :
    Except SettingsError Int :=
  match lookup? env name with
  | none => .ok default
  | some text => (Numeral.readInt text.toList).mapError (.size text)

/-- The number that a variable holds. -/
def readTime (env : List (String × String)) (name : String) (default : Binary64) :
    Except SettingsError Binary64 :=
  match lookup? env name with
  | none => .ok default
  | some text =>
    match Binary64.read? text.toList with
    | some x => .ok x
    | none => .error (.time text)

/-- **The settings under an environment.** -/
def load (env : List (String × String)) : Except SettingsError Settings := do
  let windowLimit ← readSize env "W2V_MAX_MAP_BYTES" default.windowLimit
  let segmentCapacity ← readSize env "W2V_MAX_DOUBLE_BUFFER" default.segmentCapacity
  let stride ← readSize env "W2V_REMAP_THRESHOLD_BYTES" default.stride
  let progressInterval ← readTime env "W2V_PROGRESS_INTERVAL_SEC" default.progressInterval
  .ok {
    windowLimit, segmentCapacity, stride, progressInterval
    byteOrder := (lookup? env "W2V_DEFAULT_BYTE_ORDER").getD default.byteOrder
    backend := (lookup? env "W2V_SEARCH_BACKEND").getD default.backend
    runSlowTests := match lookup? env "RUN_SLOW_TESTS" with
      | some text => text.toList.map Numeral.lower == "true".toList
      | none => default.runSlowTests }

variable (s : Settings)

/-- **What is wrong with the settings**, one line each. -/
def issues : List String :=
  (if s.segmentCapacity < 1 then ["W2V_MAX_DOUBLE_BUFFER must be >= 1"] else []) ++
  (if s.windowLimit < 1 then ["W2V_MAX_MAP_BYTES must be >= 1"] else []) ++
  (if s.stride < 1 ∨ s.windowLimit ≤ s.stride then
    ["W2V_REMAP_THRESHOLD_BYTES must be >= 1 and smaller than W2V_MAX_MAP_BYTES"] else []) ++
  (if s.stride % Window.granularity ≠ 0 then
    [s!"W2V_REMAP_THRESHOLD_BYTES must be a multiple of {Window.granularity}"] else []) ++
  (if (ByteOrder.ofName? s.byteOrder).isNone then
    [s!"Invalid W2V_DEFAULT_BYTE_ORDER: {s.byteOrder}"] else []) ++
  (if (Backend.ofName? s.backend).isNone then
    [s!"Invalid W2V_SEARCH_BACKEND: {s.backend}"] else []) ++
  (if s.progressInterval.isBelowZero then ["W2V_PROGRESS_INTERVAL_SEC must be >= 0"] else [])

/-- **Settings of use.** -/
structure Usable : Prop where
  capacity_pos : 0 < s.segmentCapacity
  limit_pos : 0 < s.windowLimit
  stride_pos : 0 < s.stride
  stride_lt : s.stride < s.windowLimit
  /-- Windows can start where the stride leads. -/
  stride_granular : s.stride % Window.granularity = 0
  order_known : (ByteOrder.ofName? s.byteOrder).isSome
  backend_known : (Backend.ofName? s.backend).isSome
  interval_nonneg : s.progressInterval.isBelowZero = false

/-- **Settings without issues are of use.** -/
theorem issues_eq_nil_iff : s.issues = [] ↔ s.Usable := by
  simp only [issues, List.append_eq_nil_iff, ite_eq_right_iff, List.cons_ne_nil, imp_false, not_or,
    Decidable.not_not, Bool.not_eq_true]
  constructor
  · rintro ⟨⟨⟨⟨⟨⟨hcapacity, hlimit⟩, hstride, hlt⟩, hgranular⟩, horder⟩, hbackend⟩, hinterval⟩
    refine ⟨by omega, by omega, by omega, by omega, hgranular, ?_, ?_, hinterval⟩
    · simpa using horder
    · simpa using hbackend
  · rintro ⟨hcapacity, hlimit, hstride, hlt, hgranular, horder, hbackend, hinterval⟩
    refine ⟨⟨⟨⟨⟨⟨by omega, by omega⟩, by omega, by omega⟩, hgranular⟩, ?_⟩, ?_⟩, hinterval⟩
    · simpa using horder
    · simpa using hbackend

/-- The name of the backend in use: the one asked for, unless none or an empty one is. -/
def backendName (asked : Option String) : String :=
  match asked with
  | none => s.backend
  | some name => if name.isEmpty then s.backend else name

/-- The backend in use. -/
def backend? (asked : Option String) : Option Backend :=
  Backend.ofName? (s.backendName asked)

end Settings

end WordVectors
