import Veos.Library.DecimalText
import Veos.Library.TracedRuns
import Veos.Vhal.TypedStore

/-!
# The command line tool `vehicle_tool`

`veos_vhal get <propId> <areaId>` and `veos_vhal set <propId> <areaId> <value>` read and
write one property through the shim, each in a process of its own.

What an invocation does depends on its arguments through the command that they spell,
and on the VHAL through the answer to one call (`main_eq`).  It leaves no client behind,
and its exit code does not tell whether the VHAL answered (`main_spec`).  On a VHAL
without faults, a sequence of invocations is a sequence of commands to a map
(`invoke_refines`): a value that was set is printed by every later `get` until it is
set again (`get_after_set`).
-/

namespace Veos
namespace Tool

open Vhal DecimalText LastWrite

/-! ## The program -/

/-- `std::atoi`: what `strtol` makes of the text, cut to an `int`.  A text that is no
number is zero, and `strtol` stops at the bounds of `long`. -/
def atoi (text : String) : Int32 :=
  let value := (parseInt text.toList).getD 0
  Int32.ofInt (max (-2 ^ 63) (min (2 ^ 63 - 1) value))

/-- What a process leaves behind for its caller. -/
structure Outcome where
  exitCode : Nat
  out : String
  err : String
  deriving DecidableEq, Repr

def usage : String :=
  "Usage:\n" ++
  "  veos_vhal get <propId> <areaId>\n" ++
  "  veos_vhal set <propId> <areaId> <value>\n"

/-- `main`.  The arguments begin with the name of the program.  `value` is what the
variable of `get`, which is not initialized, happens to hold. -/
def main (value : Int32) (argv : List String) (clients : Clients) (v : Service) :
    Outcome × Clients × Service :=
  match argv with
  | _ :: cmd :: propText :: areaText :: rest =>
      let propId := atoi propText
      let areaId := atoi areaText
      let (c, clients) := vhalConnect clients
      if c = 0 then (⟨1, "", "Failed to connect to VHAL\n"⟩, clients, v)
      else if cmd = "get" then
        let (rc, out, v) := vhalGetInt32 c propId areaId (some value) v
        let outcome : Outcome :=
          if rc = 0 then ⟨0, "Value: " ++ toString (out.getD value).toInt ++ "\n", ""⟩
          else ⟨0, "", "Error reading property (rc=" ++ toString rc.toInt ++ ")\n"⟩
        (outcome, vhalDisconnect c clients, v)
      else if cmd = "set" then
        match rest with
        | [] => (⟨1, "", "Missing value for set\n"⟩, vhalDisconnect c clients, v)
        | valueText :: _ =>
            let (rc, v) := vhalSetInt32 c propId areaId (atoi valueText) v
            let outcome : Outcome :=
              if rc = 0 then ⟨0, "Property updated.\n", ""⟩
              else ⟨0, "", "Error setting property (rc=" ++ toString rc.toInt ++ ")\n"⟩
            (outcome, vhalDisconnect c clients, v)
      else (⟨0, "", "Unknown command: " ++ cmd ++ "\n"⟩, vhalDisconnect c clients, v)
  | _ => (⟨1, "", usage⟩, clients, v)

/-! ## Commands -/

/-- What the arguments spell. -/
inductive Command
  | usage
  | get (key : Key)
  | set (key : Key) (value : Int32)
  | missingValue
  | unknown (cmd : String)
  deriving DecidableEq

def Command.ofArgs : List String → Command
  | _ :: cmd :: propText :: areaText :: rest =>
      if cmd = "get" then .get (atoi propText, atoi areaText)
      else if cmd = "set" then
        match rest with
        | [] => .missingValue
        | valueText :: _ => .set (atoi propText, atoi areaText) (atoi valueText)
      else .unknown cmd
  | _ => .usage

/-- What is printed about the answer of the VHAL to a read or a write. -/
def readOutcome : Except Int32 Int32 → Outcome
  | .ok value => ⟨0, "Value: " ++ toString value.toInt ++ "\n", ""⟩
  | .error rc => ⟨0, "", "Error reading property (rc=" ++ toString rc.toInt ++ ")\n"⟩

def writeOutcome (rc : Int32) : Outcome :=
  if rc = 0 then ⟨0, "Property updated.\n", ""⟩
  else ⟨0, "", "Error setting property (rc=" ++ toString rc.toInt ++ ")\n"⟩

/-- The answer to a read: the first component or a return code. -/
def readAnswer : Except VhalError (List Int32) → Except Int32 Int32
  | .error e => .error (toErrnoLike e.code)
  | .ok [] => .error (-5)
  | .ok (first :: _) => .ok first

/-- The command, carried out by a connected process. -/
def Command.perform : Command → Service → Outcome × Service
  | .usage, v => (⟨1, "", Tool.usage⟩, v)
  | .get key, v => (readOutcome (readAnswer (v.getValueSync key).1), (v.getValueSync key).2)
  | .set key value, v =>
      (writeOutcome (returnCode (v.setFault v.sets.length)), (v.setValueSync key [value]).2)
  | .missingValue, v => (⟨1, "", "Missing value for set\n"⟩, v)
  | .unknown cmd, v => (⟨0, "", "Unknown command: " ++ cmd ++ "\n"⟩, v)

theorem vhalGetInt32_connected {c : ClientPtr} (hc : c ≠ 0) (propId : PropId) (areaId : AreaId)
    (value : Int32) (v : Service) :
    vhalGetInt32 c propId areaId (some value) v =
      match readAnswer (v.getValueSync (propId, areaId)).1 with
      | .ok first => (0, some first, (v.getValueSync (propId, areaId)).2)
      | .error rc => (rc, some value, (v.getValueSync (propId, areaId)).2) := by
  simp only [vhalGetInt32, vhalGet, getOne, hc, if_false, readAnswer, Service.getValueSync]
  cases hfault : v.getFault v.gets with
  | none => cases v.store (propId, areaId) <;> simp
  | some fault => cases fault <;> simp [toErrnoLike_error_ne_zero]

theorem readAnswer_error_ne_zero {answer : Except VhalError (List Int32)} {rc : Int32}
    (h : readAnswer answer = .error rc) : rc ≠ 0 := by
  unfold readAnswer at h
  split at h
  · rw [← Except.error.inj h]
    exact toErrnoLike_error_ne_zero _
  · rw [← Except.error.inj h]
    decide
  · cases h

/-- A process that connected and disconnects again. -/
theorem vhalDisconnect_new (clients : Clients) (attempts : Nat) :
    vhalDisconnect (attempts + 1)
        { clients with attempts := attempts + 1, live := (attempts + 1) :: clients.live } =
      { clients with attempts := attempts + 1 } := by
  simp [vhalDisconnect]

theorem ofArgs_ne_usage (program cmd propText areaText : String) (rest : List String) :
    Command.ofArgs (program :: cmd :: propText :: areaText :: rest) ≠ .usage := by
  simp only [Command.ofArgs]
  split_ifs
  · simp
  · cases rest <;> simp
  · simp

/-- An invocation carries out the command that its arguments spell, if it needs no
connection or gets one. -/
theorem main_eq (value : Int32) (argv : List String) (clients : Clients) (v : Service) :
    main value argv clients v =
      if Command.ofArgs argv = .usage then (⟨1, "", usage⟩, clients, v)
      else if clients.createFails clients.attempts then
        (⟨1, "", "Failed to connect to VHAL\n"⟩,
          { clients with attempts := clients.attempts + 1 }, v)
      else
        (((Command.ofArgs argv).perform v).1, { clients with attempts := clients.attempts + 1 },
          ((Command.ofArgs argv).perform v).2) := by
  match argv with
  | [] => rfl
  | [_] => rfl
  | [_, _] => rfl
  | [_, _, _] => rfl
  | program :: cmd :: propText :: areaText :: rest =>
      have hconnected : clients.attempts + 1 ≠ 0 := Nat.succ_ne_zero _
      rw [if_neg (ofArgs_ne_usage program cmd propText areaText rest)]
      cases hfails : clients.createFails clients.attempts with
      | true => simp [main, vhalConnect, hfails]
      | false =>
          by_cases hget : cmd = "get"
          · subst hget
            cases hread : readAnswer (v.getValueSync (atoi propText, atoi areaText)).1 with
            | error rc =>
                simp [main, vhalConnect, hfails, vhalGetInt32_connected hconnected, hread,
                  Command.ofArgs, Command.perform, readOutcome, readAnswer_error_ne_zero hread,
                  vhalDisconnect_new]
            | ok first =>
                simp [main, vhalConnect, hfails, vhalGetInt32_connected hconnected, hread,
                  Command.ofArgs, Command.perform, readOutcome, vhalDisconnect_new]
          · by_cases hset : cmd = "set"
            · subst hset
              cases rest with
              | nil =>
                  simp [main, vhalConnect, hfails, Command.ofArgs, Command.perform,
                    vhalDisconnect_new]
              | cons valueText rest =>
                  simp [main, vhalConnect, hfails, Command.ofArgs, Command.perform, vhalSetInt32,
                    setOne_connected hconnected, writeOutcome, vhalDisconnect_new]
            · simp [main, vhalConnect, hfails, Command.ofArgs, Command.perform, hget, hset,
                vhalDisconnect_new]

/-! ## One invocation -/

/-- The set calls of a connected command. -/
def Command.sets (v : Service) : Command → List SetCall
  | .set key value => [⟨key, [value], v.setFault v.sets.length⟩]
  | _ => []

theorem Command.perform_extends (command : Command) (v : Service) :
    Extends v (command.sets v) (command.perform v).2 := by
  cases command with
  | get key => exact Extends.read v key
  | set key value => exact Extends.set v key [value]
  | _ => exact Extends.refl v

theorem Command.perform_exitCode (command : Command) (v : Service) :
    (command.perform v).1.exitCode =
      if command = .usage ∨ command = .missingValue then 1 else 0 := by
  cases command with
  | get key =>
      simp only [perform]
      cases readAnswer (v.getValueSync key).1 <;> rfl
  | set key value =>
      simp only [perform, writeOutcome]
      split <;> rfl
  | _ => rfl

/-- The read calls of a connected command. -/
def Command.gets : Command → Nat
  | .get _ => 1
  | _ => 0

theorem Command.perform_gets (command : Command) (v : Service) :
    (command.perform v).2.gets = v.gets + command.gets := by
  cases command <;> rfl

/-- A command stores nothing but under the property that it sets. -/
theorem Command.perform_store {command : Command} {key : Key} (hkey : ∀ n, command ≠ .set key n)
    (v : Service) : (command.perform v).2.store key = v.store key := by
  rw [(command.perform_extends v).store_apply]
  cases command with
  | set other n =>
      have hother : other ≠ key := by
        rintro rfl
        exact hkey n rfl
      have hnone : lastStored key (Command.sets v (.set other n)) = none :=
        (lastStored_eq_none_iff key _).2 fun call hcall _ => by
          rw [List.mem_singleton.1 hcall]
          exact hother
      rw [hnone]
      rfl
  | _ => rfl

/-- **One invocation**, whatever its arguments and whatever the VHAL answers.  With too few
arguments it does not connect.  Otherwise it connects once, carries out the command that its
arguments spell if it is connected, and disconnects the client that it connected and no
other.  It prints nothing of the variable that is not initialized, makes a set call for a
`set` command and a read for a `get`, and stores nothing elsewhere.  Its exit code tells
arguments that are too few and a connection that failed, and nothing about the answer of
the VHAL. -/
theorem main_spec (value : Int32) (argv : List String) (clients : Clients) (v : Service) :
    let r := main value argv clients v
    let command := Command.ofArgs argv
    let connected := vhalConnect clients
    let unconnected := command = .usage ∨ clients.createFails clients.attempts = true
    (r = if command = .usage then (⟨1, "", usage⟩, clients, v)
      else if clients.createFails clients.attempts then
        (⟨1, "", "Failed to connect to VHAL\n"⟩, connected.2, v)
      else
        ((command.perform v).1, vhalDisconnect connected.1 connected.2, (command.perform v).2)) ∧
    (r.2.1.live = clients.live ∧
      r.2.1.attempts = clients.attempts + if command = .usage then 0 else 1) ∧
    (∀ value', main value' argv clients v = r) ∧
    (r.1.exitCode = if unconnected ∨ command = .missingValue then 1 else 0) ∧
    r.2.2.setsSince v = (if unconnected then [] else command.sets v) ∧
    (r.2.2.gets = v.gets + if unconnected then 0 else command.gets) ∧
    ∀ key, (∀ n, command ≠ .set key n) → r.2.2.store key = v.store key := by
  intro r command connected unconnected
  have hvalue : ∀ value', main value' argv clients v = r := fun value' => by
    rw [main_eq value' argv clients v, ← main_eq value argv clients v]
  by_cases husage : command = .usage
  · have hr : r = (⟨1, "", usage⟩, clients, v) := (main_eq ..).trans (if_pos husage)
    have hunconnected : unconnected := .inl husage
    rw [if_pos husage, if_pos husage, if_pos (.inl hunconnected), if_pos hunconnected,
      if_pos hunconnected]
    rw [hr] at hvalue ⊢
    exact ⟨rfl, ⟨rfl, rfl⟩, hvalue, rfl, (Extends.refl v).setsSince, rfl, fun _ _ => rfl⟩
  rw [if_neg husage, if_neg husage]
  by_cases hfails : clients.createFails clients.attempts = true
  · have hr : r = (⟨1, "", "Failed to connect to VHAL\n"⟩,
        { clients with attempts := clients.attempts + 1 }, v) :=
      ((main_eq ..).trans (if_neg husage)).trans (if_pos hfails)
    have hconnected : connected.2 = { clients with attempts := clients.attempts + 1 } := by
      simp [connected, vhalConnect, hfails]
    have hunconnected : unconnected := .inr hfails
    rw [if_pos hfails, hconnected, if_pos (.inl hunconnected), if_pos hunconnected,
      if_pos hunconnected]
    rw [hr] at hvalue ⊢
    exact ⟨rfl, ⟨rfl, rfl⟩, hvalue, rfl, (Extends.refl v).setsSince, rfl, fun _ _ => rfl⟩
  · have hr : r = ((command.perform v).1, { clients with attempts := clients.attempts + 1 },
        (command.perform v).2) :=
      ((main_eq ..).trans (if_neg husage)).trans (if_neg hfails)
    have hdisconnected : vhalDisconnect connected.1 connected.2 =
        { clients with attempts := clients.attempts + 1 } := by
      simp [connected, vhalConnect, hfails, vhalDisconnect_new]
    have hconnected : ¬ unconnected := by
      rintro (h | h)
      · exact husage h
      · exact hfails h
    rw [if_neg hfails, hdisconnected, if_neg hconnected, if_neg hconnected]
    rw [hr] at hvalue ⊢
    refine ⟨rfl, ⟨rfl, rfl⟩, hvalue, ?_, (command.perform_extends v).setsSince,
      command.perform_gets v, fun key hkey => command.perform_store hkey v⟩
    rw [command.perform_exitCode v]
    simp [husage, hconnected]

/-! ## Sequences of invocations -/

/-- A process of the tool.  `value` is what the variable of `get` happens to hold. -/
structure Invocation where
  argv : List String
  value : Int32
  connects : Bool

/-- What a new process prints, and the VHAL after it. -/
def invoke (v : Service) (i : Invocation) : Outcome × Service :=
  let r := main i.value i.argv ⟨[], 0, fun _ => !i.connects⟩ v
  (r.1, r.2.2)

/-- A command to a map from properties to values. -/
def Command.mapStep (cells : Cells) : Command → Outcome × Cells
  | .usage => (⟨1, "", Tool.usage⟩, cells)
  | .get key => (readOutcome ((cells key).elim (.error (-5)) .ok), cells)
  | .set key value => (writeOutcome 0, Function.update cells key (some value))
  | .missingValue => (⟨1, "", "Missing value for set\n"⟩, cells)
  | .unknown cmd => (⟨0, "", "Unknown command: " ++ cmd ++ "\n"⟩, cells)

def mapInvoke (cells : Cells) (i : Invocation) : Outcome × Cells :=
  if Command.ofArgs i.argv ≠ .usage ∧ i.connects = false then
    (⟨1, "", "Failed to connect to VHAL\n"⟩, cells)
  else (Command.ofArgs i.argv).mapStep cells

/-- The VHAL stands for the map, and does not fail. -/
def StandsFor (v : Service) (cells : Cells) : Prop := v.Faultless ∧ cellsOf v.store = cells

theorem perform_refines (command : Command) {v : Service} {cells : Cells}
    (h : StandsFor v cells) :
    (command.perform v).1 = (command.mapStep cells).1 ∧
      StandsFor (command.perform v).2 (command.mapStep cells).2 := by
  obtain ⟨hv, rfl⟩ := h
  cases command with
  | get key =>
      refine ⟨?_, (Extends.read v key).faultless hv, rfl⟩
      simp only [Command.perform, Command.mapStep, readAnswer, Service.getValueSync, hv.2, cellsOf]
      cases v.store key <;> rfl
  | set key value =>
      refine ⟨?_, (Extends.set v key [value]).faultless hv, ?_⟩
      · simp [Command.perform, Command.mapStep, hv.1, returnCode]
      · have hstore :
            (v.setValueSync key [value]).2.store = Function.update v.store key [value] := by
          simp [Service.setValueSync, hv.1]
        simp only [Command.perform, Command.mapStep, hstore, cellsOf_update]
  | _ => exact ⟨rfl, hv, rfl⟩

theorem invoke_refines (v : Service) (cells : Cells) (i : Invocation) (h : StandsFor v cells) :
    (invoke v i).1 = (mapInvoke cells i).1 ∧ StandsFor (invoke v i).2 (mapInvoke cells i).2 := by
  unfold invoke mapInvoke
  rw [main_eq]
  by_cases husage : Command.ofArgs i.argv = .usage
  · simpa [husage, Command.mapStep] using h
  · cases hconnects : i.connects with
    | false => simpa [husage, hconnects] using h
    | true => simpa [husage, hconnects] using perform_refines (Command.ofArgs i.argv) h

/-! ## Reading back what was set -/

/-- The text of an `int` is read as that `int`. -/
theorem atoi_toString (n : Int32) : atoi (toString n.toInt) = n := by
  have hread : parseInt (toString n.toInt).toList = some n.toInt := by
    rw [toList_toString]
    simpa using parseInt_printInt_zeros n.toInt 0
  have hmin := n.le_toInt
  have hmax := n.toInt_lt
  have hbounds : max (-2 ^ 63) (min (2 ^ 63 - 1) n.toInt) = n.toInt := by omega
  rw [atoi, hread, Option.getD_some, hbounds, Int32.ofInt_toInt]

/-- The arguments of a `get`, and of a `set`, for a property.  What follows them is ignored. -/
def getArgs (program : String) (key : Key) (rest : List String) : List String :=
  program :: "get" :: toString key.1.toInt :: toString key.2.toInt :: rest

def setArgs (program : String) (key : Key) (value : Int32) (rest : List String) : List String :=
  program :: "set" :: toString key.1.toInt :: toString key.2.toInt :: toString value.toInt :: rest

theorem ofArgs_getArgs (program : String) (key : Key) (rest : List String) :
    Command.ofArgs (getArgs program key rest) = .get key := by
  simp only [getArgs, Command.ofArgs, atoi_toString, if_true]

theorem ofArgs_setArgs (program : String) (key : Key) (value : Int32) (rest : List String) :
    Command.ofArgs (setArgs program key value rest) = .set key value := by
  have hcmd : "set" ≠ "get" := by decide
  simp only [setArgs, Command.ofArgs, atoi_toString, if_neg hcmd, if_true]

/-- What an invocation writes, if its process connects. -/
def Invocation.written (i : Invocation) : Option (Key × Int32) :=
  match Command.ofArgs i.argv, i.connects with
  | .set key value, true => some (key, value)
  | _, _ => none

theorem mapInvoke_cells (cells : Cells) (i : Invocation) (key : Key) :
    (mapInvoke cells i).2 key = (lastValue key i.written.toList).or (cells key) := by
  unfold mapInvoke Invocation.written
  cases hcommand : Command.ofArgs i.argv with
  | set other value =>
      cases hconnects : i.connects with
      | false => simp
      | true => simpa [Command.mapStep] using update_eq_lastValue cells other key value
  | _ => cases i.connects <;> simp [Command.mapStep]

/-- The map after a sequence of invocations holds the last value written. -/
theorem final_mapInvoke (invocations : List Invocation) (cells : Cells) (key : Key) :
    TracedRuns.final mapInvoke invocations cells key =
      (lastValue key (invocations.filterMap Invocation.written)).or (cells key) := by
  induction invocations using List.reverseRecOn with
  | nil => rfl
  | append_singleton invocations i ih =>
      have hlast : TracedRuns.final mapInvoke (invocations ++ [i]) cells =
          (mapInvoke (TracedRuns.final mapInvoke invocations cells) i).2 :=
        TracedRuns.final_append mapInvoke invocations [i] cells
      have hwritten : [i].filterMap Invocation.written = i.written.toList := by
        cases hi : i.written <;> simp [hi]
      rw [hlast, mapInvoke_cells, ih, List.filterMap_append, lastValue_append, hwritten,
        Option.or_assoc]

/-- **The tool reads back what it set.**  On a VHAL without faults, whatever the processes
of a sequence of invocations print is what a map prints that takes their commands.  A
`set` with the decimal texts of a property and a value writes that value, and a `get` with
the texts of the property prints the last one written, or that there is none. -/
theorem get_after_set (v : Service) (hv : v.Faultless) (invocations : List Invocation)
    (key : Key) (program : String) (rest : List String) (value : Int32) :
    let written := invocations.filterMap Invocation.written
    let after := TracedRuns.final invoke invocations v
    TracedRuns.trace invoke invocations v =
      TracedRuns.trace mapInvoke invocations (cellsOf v.store) ∧
    (∀ n, Invocation.written ⟨setArgs program key n rest, value, true⟩ = some (key, n)) ∧
    (invoke after ⟨getArgs program key rest, value, true⟩).1 =
      match (lastValue key written).or (cellsOf v.store key) with
      | some n => ⟨0, "Value: " ++ toString n.toInt ++ "\n", ""⟩
      | none => ⟨0, "", "Error reading property (rc=-5)\n"⟩ := by
  intro written after
  obtain ⟨htrace, hfinal⟩ := TracedRuns.simulation invoke_refines ⟨hv, rfl⟩ invocations
  refine ⟨htrace, fun n => by simp [Invocation.written, ofArgs_setArgs], ?_⟩
  rw [(invoke_refines _ _ _ hfinal).1, mapInvoke, ofArgs_getArgs, if_neg (by simp)]
  simp only [Command.mapStep, final_mapInvoke]
  cases (lastValue key written).or (cellsOf v.store key) <;> rfl

/-- A battery level set to 80 by one process is read by the next. -/
theorem level_read_back :
    (invoke (TracedRuns.final invoke
        [⟨setArgs "veos_vhal" (557846544, 0) 80 [], 0, true⟩] (.fresh fun _ => []))
      ⟨getArgs "veos_vhal" (557846544, 0) [], 7, true⟩).1 = ⟨0, "Value: 80\n", ""⟩ := by
  have hread := (get_after_set (.fresh fun _ => []) (Service.fresh_faultless _)
    [⟨setArgs "veos_vhal" (557846544, 0) 80 [], 0, true⟩] (557846544, 0) "veos_vhal" [] 7).2.2
  have hwritten : lastValue (557846544, 0)
      ([⟨setArgs "veos_vhal" (557846544, 0) 80 [], 0, true⟩].filterMap Invocation.written) =
        some 80 := by
    simp [Invocation.written, ofArgs_setArgs, lastValue_singleton]
  rw [hwritten] at hread
  exact hread

end Tool
end Veos
