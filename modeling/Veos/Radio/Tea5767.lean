import Mathlib.Logic.Function.Basic
import Veos.Library.DecimalText

/-!
# The radio: `Tea5767Hal` and `Tea5767Service`

The driver of the TEA5767 tuner exports one text file for each of its settings.
`Tea5767Hal` sets the station by writing its frequency to a file and reads it back
from there; `Tea5767Service` is the binder interface over it.

`tune` inserts two numbers into the stream, the frequency and a zero, so that the
text in the file is the frequency with one more digit (`station_tune`).  What is
read back is ten times the frequency, or an exception where that is no `int`.
-/

namespace Veos
namespace Radio

open DecimalText

/-! ## Files -/

/-- What the two classes see of the file system: the text of every file that can be
opened for reading, and which files can be opened for writing.  A file returns the
text last written to it. -/
structure FileSystem where
  text : String → Option (List Char)
  writable : String → Bool

/-- Open a file for writing, which truncates it, and write `text`. -/
def FileSystem.write (fs : FileSystem) (path : String) (text : List Char) : FileSystem :=
  { fs with text := Function.update fs.text path (some text) }

@[simp] theorem FileSystem.write_writable (fs : FileSystem) (path : String) (text : List Char) :
    (fs.write path text).writable = fs.writable := rfl

@[simp] theorem FileSystem.write_text_self (fs : FileSystem) (path : String)
    (text : List Char) : (fs.write path text).text path = some text := by
  simp [write]

theorem FileSystem.write_text_of_ne (fs : FileSystem) {path other : String} (text : List Char)
    (hne : other ≠ path) : (fs.write path text).text other = fs.text other := by
  simp [write, hne]

/-! ## The standard library -/

/-- The exceptions of `std::stoi`. -/
inductive StoiException
  | invalid_argument
  | out_of_range
  deriving DecidableEq, Repr

/-- `std::stoi`. -/
def stoi (text : List Char) : Except StoiException Int32 :=
  match parseInt text with
  | none => .error .invalid_argument
  | some value =>
      if value < Int32.minValue.toInt ∨ Int32.maxValue.toInt < value then .error .out_of_range
      else .ok (Int32.ofInt value)

/-- `std::ofstream::operator<<(int)`, on the text inserted so far. -/
def insertInt (text : List Char) (value : Int32) : List Char :=
  text ++ printInt value.toInt

/-! ## `Tea5767Hal` -/

structure Tea5767Hal where
  basePath : String := "/sys/class/i2c-dev/i2c-1/device/1-0060/tea5767/"

namespace Tea5767Hal

/-- The file of a setting. -/
def path (hal : Tea5767Hal) (file : String) : String := hal.basePath ++ file

/-- `readFromFile`. -/
def readFromFile (hal : Tea5767Hal) (file : String) (fs : FileSystem) : List Char :=
  match fs.text (hal.path file) with
  -- a file that does not open is logged and read as the empty string
  | none => []
  | some text => firstWord text

/-- The shell command of `mute` and `unmute`.  Its path does not depend on `basePath`,
and a command that fails is logged. -/
def echoMute (value : Char) (fs : FileSystem) : FileSystem :=
  let mutePath := "/sys/class/i2c-dev/i2c-1/device/1-0060/tea5767/mute"
  if fs.writable mutePath then fs.write mutePath [value, '\n'] else fs

def mute : FileSystem → FileSystem := echoMute '1'

def unmute : FileSystem → FileSystem := echoMute '0'

def isMuted (hal : Tea5767Hal) (fs : FileSystem) : Bool :=
  hal.readFromFile "mute" fs = ['1']

def getStation (hal : Tea5767Hal) (fs : FileSystem) : Except StoiException Int32 :=
  stoi (hal.readFromFile "station" fs)

def tune (hal : Tea5767Hal) (frequencyKHz : Int32) (fs : FileSystem) : FileSystem :=
  if fs.writable (hal.path "station") then
    let file := insertInt [] frequencyKHz
    let file := insertInt file 0
    fs.write (hal.path "station") file
  -- a file that does not open is logged
  else fs

def getStationList (hal : Tea5767Hal) (fs : FileSystem) : List Char :=
  hal.readFromFile "stationlist" fs

end Tea5767Hal

/-! ## `Tea5767Service` -/

/-- The statuses that the service returns. -/
inductive ScopedAStatus
  | ok
  | EX_NULL_POINTER
  deriving DecidableEq, Repr

structure Tea5767Service where
  hal : Option Tea5767Hal

namespace Tea5767Service

/-- The body shared by the three methods. -/
def withHal (service : Tea5767Service) (operation : Tea5767Hal → FileSystem → FileSystem)
    (fs : FileSystem) : ScopedAStatus × FileSystem :=
  match service.hal with
  | none => (.EX_NULL_POINTER, fs)
  -- the operations return nothing that could be checked
  | some hal => (.ok, operation hal fs)

def mute (service : Tea5767Service) : FileSystem → ScopedAStatus × FileSystem :=
  service.withHal fun _ => Tea5767Hal.mute

def unmute (service : Tea5767Service) : FileSystem → ScopedAStatus × FileSystem :=
  service.withHal fun _ => Tea5767Hal.unmute

def changeStation (service : Tea5767Service) (frequencyKHz : Int32) :
    FileSystem → ScopedAStatus × FileSystem :=
  service.withHal fun hal => hal.tune frequencyKHz

end Tea5767Service

/-! ## The files after an operation -/

namespace Tea5767Hal

theorem path_ne (hal : Tea5767Hal) {file other : String} (hne : file ≠ other) :
    hal.path file ≠ hal.path other := by
  intro hpath
  exact hne (String.append_right_inj hal.basePath |>.1 hpath)

theorem readFromFile_congr (hal : Tea5767Hal) {file : String} {fs fs' : FileSystem}
    (htext : fs.text (hal.path file) = fs'.text (hal.path file)) :
    hal.readFromFile file fs = hal.readFromFile file fs' := by
  rw [readFromFile, htext]
  rfl

/-- After a successful `tune` the file holds the frequency with a zero behind it. -/
theorem station_tune (hal : Tea5767Hal) (frequencyKHz : Int32) {fs : FileSystem}
    (hwritable : fs.writable (hal.path "station") = true) :
    (hal.tune frequencyKHz fs).text (hal.path "station") =
      some (printInt frequencyKHz.toInt ++ List.replicate 1 '0') := by
  simp only [tune, hwritable, if_true, FileSystem.write_text_self, insertInt, List.nil_append]
  rfl

/-- Tuning touches no other setting. -/
theorem readFromFile_tune (hal : Tea5767Hal) (frequencyKHz : Int32) (fs : FileSystem)
    {file : String} (hfile : file ≠ "station") :
    hal.readFromFile file (hal.tune frequencyKHz fs) = hal.readFromFile file fs := by
  unfold tune
  split
  · exact hal.readFromFile_congr (FileSystem.write_text_of_ne fs _ (hal.path_ne hfile))
  · rfl

theorem tune_writable (hal : Tea5767Hal) (frequencyKHz : Int32) (fs : FileSystem) :
    (hal.tune frequencyKHz fs).writable = fs.writable := by
  unfold tune
  split <;> rfl

/-- What is read back after a successful `tune`. -/
theorem getStation_tune (hal : Tea5767Hal) (frequencyKHz : Int32) {fs : FileSystem}
    (hwritable : fs.writable (hal.path "station") = true) :
    hal.getStation (hal.tune frequencyKHz fs) =
      if 10 * frequencyKHz.toInt < Int32.minValue.toInt ∨
          Int32.maxValue.toInt < 10 * frequencyKHz.toInt then .error .out_of_range
      else .ok (Int32.ofInt (10 * frequencyKHz.toInt)) := by
  rw [getStation, readFromFile, hal.station_tune frequencyKHz hwritable]
  simp only [firstWord_printInt_zeros, stoi, parseInt_printInt_zeros, Int.pow_one]

/-- Ten times a frequency is the frequency again for zero alone. -/
theorem getStation_tune_eq_iff (hal : Tea5767Hal) (frequencyKHz : Int32) {fs : FileSystem}
    (hwritable : fs.writable (hal.path "station") = true) :
    hal.getStation (hal.tune frequencyKHz fs) = .ok frequencyKHz ↔ frequencyKHz = 0 := by
  rw [hal.getStation_tune frequencyKHz hwritable]
  constructor
  · intro heq
    split at heq
    · cases heq
    · rename_i hrange
      have hlow : Int32.minValue.toInt = -2 ^ 31 := rfl
      have hhigh : Int32.maxValue.toInt = 2 ^ 31 - 1 := rfl
      have hvalue := congrArg Int32.toInt (Except.ok.inj heq)
      rw [Int32.toInt_ofInt_of_le (by omega) (by omega)] at hvalue
      exact Int32.toInt_inj.1 (by rw [Int32.toInt_zero]; omega)
  · rintro rfl
    rfl

/-- Muting shows in `isMuted` exactly for a HAL whose base path is that of the shell
command. -/
theorem isMuted_echoMute (hal : Tea5767Hal) (value : Char) (hvalue : isSpace value = false)
    {fs : FileSystem}
    (hwritable : fs.writable "/sys/class/i2c-dev/i2c-1/device/1-0060/tea5767/mute" = true) :
    hal.isMuted (echoMute value fs) =
      if hal.path "mute" = "/sys/class/i2c-dev/i2c-1/device/1-0060/tea5767/mute" then
        decide (value = '1')
      else hal.isMuted fs := by
  have hecho : echoMute value fs =
      fs.write "/sys/class/i2c-dev/i2c-1/device/1-0060/tea5767/mute" [value, '\n'] := by
    simp [echoMute, hwritable]
  rw [isMuted, isMuted, hecho]
  split
  · rename_i hpath
    have hread : hal.readFromFile "mute"
        (fs.write "/sys/class/i2c-dev/i2c-1/device/1-0060/tea5767/mute" [value, '\n']) =
          [value] := by
      have hnewline : isSpace '\n' = true := rfl
      simp [readFromFile, hpath, firstWord, hvalue, hnewline]
    simp [hread]
  · rename_i hpath
    rw [hal.readFromFile_congr (FileSystem.write_text_of_ne fs _ hpath)]

end Tea5767Hal

/-! ## Changing the station -/

namespace Tea5767Service

variable {service : Tea5767Service} {hal : Tea5767Hal}

/-- A sequence of `changeStation` calls. -/
def runStations (service : Tea5767Service) (frequencies : List Int32) (fs : FileSystem) :
    FileSystem :=
  frequencies.foldl (fun fs frequencyKHz => (service.changeStation frequencyKHz fs).2) fs

theorem changeStation_of_hal (hhal : service.hal = some hal) (frequencyKHz : Int32)
    (fs : FileSystem) :
    service.changeStation frequencyKHz fs = (.ok, hal.tune frequencyKHz fs) := by
  simp [changeStation, withHal, hhal]

theorem runStations_writable (hhal : service.hal = some hal) (frequencies : List Int32)
    (fs : FileSystem) : (service.runStations frequencies fs).writable = fs.writable := by
  refine List.foldlRecOn (motive := fun later : FileSystem => later.writable = fs.writable)
    frequencies _ rfl ?_
  intro later hlater frequencyKHz _
  rw [changeStation_of_hal hhal, hal.tune_writable, hlater]

/-- Only the last of a sequence of calls shows in what is read back. -/
theorem getStation_runStations (hhal : service.hal = some hal) (frequencies : List Int32)
    (frequencyKHz : Int32) (fs : FileSystem)
    (hwritable : fs.writable (hal.path "station") = true) :
    hal.getStation (service.runStations (frequencies ++ [frequencyKHz]) fs) =
      hal.getStation (hal.tune frequencyKHz fs) := by
  have hlater : (service.runStations frequencies fs).writable (hal.path "station") = true := by
    rw [runStations_writable hhal, hwritable]
  rw [runStations, List.foldl_append, List.foldl_cons, List.foldl_nil, ← runStations,
    changeStation_of_hal hhal, hal.getStation_tune frequencyKHz hlater,
    hal.getStation_tune frequencyKHz hwritable]

/-- **Tuning and reading back.**  Whatever the station file held, a call of
`changeStation` that can open it succeeds, and what `getStation` then returns is the
frequency for the frequency zero and for no other.  In general it is ten times the
frequency, or `std::out_of_range` where that does not fit an `int`. -/
theorem getStation_changeStation_iff (hhal : service.hal = some hal) (frequencyKHz : Int32)
    (fs : FileSystem) (hwritable : fs.writable (hal.path "station") = true) :
    let result := service.changeStation frequencyKHz fs
    result.1 = .ok ∧
    (hal.getStation result.2 = .ok frequencyKHz ↔ frequencyKHz = 0) ∧
    hal.getStation result.2 =
      if 10 * frequencyKHz.toInt < Int32.minValue.toInt ∨
          Int32.maxValue.toInt < 10 * frequencyKHz.toInt then .error .out_of_range
      else .ok (Int32.ofInt (10 * frequencyKHz.toInt)) := by
  intro result
  have hresult : result = (.ok, hal.tune frequencyKHz fs) :=
    changeStation_of_hal hhal frequencyKHz fs
  rw [hresult]
  exact ⟨rfl, hal.getStation_tune_eq_iff frequencyKHz hwritable,
    hal.getStation_tune frequencyKHz hwritable⟩

/-- A file system on which every file opens and is empty. -/
def emptyFiles : FileSystem := ⟨fun _ => some [], fun _ => true⟩

/-- Tuning to 89.2 MHz reads back as 892 MHz, and for the largest frequency the
read throws. -/
theorem getStation_changes_frequency :
    let service : Tea5767Service := ⟨some {}⟩
    let hal : Tea5767Hal := {}
    hal.getStation (service.changeStation 89200 emptyFiles).2 = .ok 892000 ∧
    hal.getStation (service.changeStation Int32.maxValue emptyFiles).2 =
      .error .out_of_range := by
  intro service hal
  have hservice : service.hal = some hal := rfl
  rw [changeStation_of_hal hservice, changeStation_of_hal hservice,
    hal.getStation_tune 89200 rfl, hal.getStation_tune Int32.maxValue rfl]
  exact ⟨by decide, by decide⟩

/-- The frequency zero is read back. -/
theorem getStation_changeStation_zero :
    let service : Tea5767Service := ⟨some {}⟩
    let hal : Tea5767Hal := {}
    hal.getStation (service.changeStation 0 emptyFiles).2 = .ok 0 := by
  intro service hal
  have hhal : service.hal = some hal := rfl
  exact (getStation_changeStation_iff hhal 0 emptyFiles rfl).2.1.2 rfl

end Tea5767Service

end Radio
end Veos
