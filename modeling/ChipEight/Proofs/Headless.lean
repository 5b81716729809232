/-
# A run from the command line is plain stepping

The command line runs a program on devices that only count what they are handed,
and reports the count, the display and the fault. Between the words and the report
lie the file, the load, the clocks, the loop, the timers and the buzzer. None of
them shows: the report is the one of plain stepping, on whatever host and from
whatever file, unless the program reads what the host decides. A log, if the host
keeps one, shows among the output, and nowhere else.
-/

import ChipEight.Proofs.Drawing
import ChipEight.Proofs.Output
import ChipEight.Proofs.Reload
import ChipEight.Proofs.Rendering
import ChipEight.Proofs.Stepping

namespace ChipEight

/-- How a run ends that makes the steps of plain stepping: with the fault, or with
the interrupt behind the last step. -/
def Stepped.ending (stepped : Stepped) : Except Fault Signal :=
  match stepped.fault? with
  | some fault => .error fault
  | none => .ok .interrupt

/-- The run has made the steps of plain stepping, on top of a count. -/
structure RunEnd.Matches (done : RunEnd Command.Tally) (count : Nat) (stepped : Stepped) :
    Prop where
  display : done.emulator.machine.display = stepped.machine.display
  draws : done.record.draws = count + stepped.draws
  result : done.result = stepped.ending

/-- A display as lines of text: 32 rows of 64 pixels, from the top and from the left. -/
def Display.shown (d : Display) : String :=
  String.ofList ((List.range 32).flatMap fun y =>
    ((List.range 64).map fun x => if d.lit x y then '#' else '.') ++ ['\n'])

theorem Display.ofList_picture (d : Display) : String.ofList d.picture = d.shown := by
  simp only [picture, rows, row, height, width, shown, List.flatMap_map, List.map_map]
  rfl

/-- The text that plain stepping comes to. -/
def Stepped.text (stepped : Stepped) : String :=
  "Running Bytecode Interpreter\ndraw calls: " ++ toString stepped.draws ++ "\n" ++
    stepped.machine.display.shown ++ "\n"

theorem Machine.veil_tick (m : Machine) (count : Nat) : (m.tick count).veil = m.veil := by
  rw [tick_eq]
  rfl

namespace Emulator

variable {σ : Type} (host : Host (StateM σ)) {e : Emulator} {m : Machine}

/-! ## One pass -/

/-- Nothing stops the emulator, and behind the veil its machine is this one. -/
structure Shadows (e : Emulator) (m : Machine) : Prop where
  running : e.interrupted = false
  machine : e.machine.veil = m.veil

theorem Shadows.display (shadows : e.Shadows m) : e.machine.display = m.display := by
  have same := congrArg Machine.display shadows.machine
  exact same

theorem Shadows.step (shadows : e.Shadows m)
    (unread : ∀ x, m.executed? .step = some x → x.instruction.readsHost = false) (now : Readings) :
    (e.step now).1 = m.step.1 ∧ (e.step now).2.Shadows m.step.2 := by
  obtain ⟨cycles, pace, timerClock, -, made⟩ := step_of_running shadows.running now
  have same : m.veil = (e.machine.tick cycles).veil := by
    rw [Machine.veil_tick, shadows.machine]
  have alike := Machine.blanks_veil.step_congr same unread
  rw [made]
  exact ⟨(congrArg Prod.fst alike).symm, shadows.running, (congrArg Prod.snd alike).symm⟩

theorem length_drawn (attempt : Except Fault Signal × Emulator) :
    (drawn attempt).length = if attempt.1 = .ok .draw then 1 else 0 := by
  obtain ⟨outcome, next⟩ := attempt
  cases outcome with
  | error fault => rfl
  | ok signal => cases signal <;> rfl

/-- A pass makes the step of the machine: it ends the run exactly if the step
fails, and hands over one display exactly if the step drew. -/
theorem Shadows.turn (shadows : e.Shadows m)
    (unread : ∀ x, m.executed? .step = some x → x.instruction.readsHost = false) (now : Readings) :
    (e.turn now).emulator.Shadows m.step.2 ∧
      ((e.turn now).calls.filterMap DeviceCall.frame?).length =
        (if m.step.1 = .ok .draw then 1 else 0) ∧
      (e.turn now).ending =
        match m.step.1 with
        | .error fault => some (.error fault)
        | .ok _ => none := by
  obtain ⟨outcome, next⟩ := shadows.step unread now
  rw [frames_turn, length_drawn, outcome]
  rcases e.turn_cases now with ⟨fault, after, made, turned⟩ | ⟨stopped, -⟩ |
    ⟨signal, after, -, made, turned⟩
  · rw [made] at outcome next
    rw [turned, ← outcome]
    exact ⟨next, rfl, rfl⟩
  · rw [shadows.running] at stopped
    cases stopped
  · rw [made] at outcome next
    rw [turned, ← outcome]
    refine ⟨?_, rfl, rfl⟩
    rw [fst_followSound]
    exact ⟨next.running, next.machine⟩

/-! ## The loop -/

/-- Devices without a screen count the displays that they are handed. -/
theorem draws_observeAll (polls : Nat) (calls : List DeviceCall) (tally : Command.Tally) :
    ((Command.headless host).observeAll polls calls tally).draws =
      tally.draws + (calls.filterMap DeviceCall.frame?).length := by
  rw [Devices.observeAll]
  induction calls generalizing tally with
  | nil => rfl
  | cons call rest ih =>
      rw [List.foldl_cons, ih]
      cases call with
      | draw frame => exact Nat.succ_add tally.draws _
      | buzz on => rfl

theorem runLoop_headless_zero (polls : Nat) (e : Emulator) (tally : Command.Tally) (world : σ) :
    ((runLoop (Command.headless host) 0 polls e tally).run world).1 =
      e.interrupt.followSound.1.endRun (Command.headless host) (polls + 1) (.ok .interrupt)
        ((Command.headless host).observeAll (polls + 1) e.interrupt.followSound.2 tally) := rfl

theorem runLoop_headless_succ (left polls : Nat) (e : Emulator) (tally : Command.Tally)
    (world : σ) :
    let t := e.turn (host.readings.run world).1
    let later := (Command.headless host).observeAll (polls + 1) t.calls tally
    ((runLoop (Command.headless host) (left + 1) polls e tally).run world).1 =
      match t.ending with
      | some result => t.emulator.endRun (Command.headless host) (polls + 1) result later
      | none =>
        ((runLoop (Command.headless host) left (polls + 1) t.emulator later).run
          (host.readings.run world).2).1 := by
  intro t later
  show (StateT.run (match t.ending with
    | some result => return t.emulator.endRun (Command.headless host) (polls + 1) result later
    | none => runLoop (Command.headless host) left (polls + 1) t.emulator later)
      (host.readings.run world).2).1 = _
  cases t.ending <;> rfl

theorem matches_endRun (stepped : Stepped) {tally : Command.Tally} {count : Nat} (polls : Nat)
    (display : e.machine.display = stepped.machine.display)
    (draws : tally.draws = count + stepped.draws) :
    (e.endRun (Command.headless host) polls stepped.ending tally).Matches count stepped := by
  rw [endRun]
  split <;> exact ⟨display, draws, rfl⟩

/-- The loop makes the steps of plain stepping, by induction on the polls that go on. -/
theorem matches_runLoop (shadows : e.Shadows m) (left polls : Nat) (tally : Command.Tally)
    (world : σ) (free : m.HostFree left) :
    ((runLoop (Command.headless host) left polls e tally).run world).1.Matches tally.draws
      (m.stepUpTo left) := by
  induction left generalizing e m polls tally world with
  | zero =>
      rw [runLoop_headless_zero]
      refine matches_endRun host ⟨m, 0, none⟩ (polls + 1) ?_ ?_
      · rw [fst_followSound]
        exact shadows.display
      · rw [draws_observeAll, frames_followSound]
        rfl
  | succ left ih =>
      obtain ⟨unread, later⟩ := Machine.hostFree_succ.mp free
      obtain ⟨next, frames, ended⟩ := shadows.turn unread (host.readings.run world).1
      have counted := draws_observeAll host (polls + 1)
        (e.turn (host.readings.run world).1).calls tally
      rw [frames] at counted
      rw [runLoop_headless_succ]
      cases made : m.step with
      | mk outcome after =>
          rw [made] at next later ended counted
          cases outcome with
          | error fault =>
              rw [ended, Machine.stepUpTo_of_error made]
              exact matches_endRun host ⟨after, 0, some fault⟩ (polls + 1)
                next.display counted
          | ok signal =>
              have rest := ih next (polls + 1)
                ((Command.headless host).observeAll (polls + 1)
                  (e.turn (host.readings.run world).1).calls tally)
                (host.readings.run world).2 later
              simp only [Except.ok.injEq] at counted
              rw [ended, Machine.stepUpTo_of_ok made]
              refine ⟨rest.display, ?_, rest.result⟩
              rw [rest.draws, counted, Nat.add_assoc]

end Emulator

namespace Command

variable {σ : Type} {program : List UInt8} {steps : Nat} {logged : Bool} {report : Report}

/-! ## From the words to the run -/

theorem plainAll_runOutput {done : RunEnd Tally} {stepped : Stepped}
    (same : done.Matches 0 stepped) (program : List UInt8) :
    Printed.plainAll (runOutput program done) = stepped.text := by
  show _ = _ ++ toString stepped.draws ++ _ ++ stepped.machine.display.shown ++ _
  have front : runBanner ++ "draw calls: " = "Running Bytecode Interpreter\ndraw calls: " := by
    decide +kernel
  have draws : done.record.draws = stepped.draws := same.draws.trans (Nat.zero_add _)
  simp only [runOutput, Printed.plainAll_append, Printed.plainAll_map_log, Printed.plainAll,
    Printed.plain, String.append_empty, ← String.append_assoc]
  rw [front, draws, Machine.dumpDisplay, same.display, Display.ofList_picture,
    Numeral.ofList_decimal]

theorem runFault?_of_matches {done : RunEnd Tally} {stepped : Stepped}
    (same : done.Matches 0 stepped) : runFault? done = stepped.fault? := by
  rw [runFault?, same.result, Stepped.ending]
  cases stepped.fault? <;> rfl

/-- At the readings that the host gives, a program is loaded and run, and its output is
written. -/
theorem exists_load_run (host : Host (StateM σ)) (program : List UInt8) (steps : Nat)
    (world : σ) :
    ∃ entropy new now later,
      ((runProgram host program steps).run world).1 =
        match (Emulator.ofSettings .usual entropy new).load program now with
        | (.error fault, _) => ((finish host [.text runBanner] (some fault)).run later).1
        | (.ok (), e) =>
          let ran := (e.run (headless host) steps .zero).run later
          ((finish host (runOutput program ran.1) (runFault? ran.1)).run ran.2).1 := by
  let keyed := host.entropy.run world
  let new := host.readings.run keyed.2
  let now := host.readings.run new.2
  refine ⟨keyed.1, new.1, now.1, now.2, ?_⟩
  show (StateT.run (match (Emulator.ofSettings .usual keyed.1 new.1).load program now.1 with
    | (.error fault, _) => finish host [.text runBanner] (some fault)
    | (.ok (), e) => do
      let done ← e.run (headless host) steps .zero
      finish host (runOutput program done) (runFault? done)) now.2).1 = _
  split <;> rfl

theorem ends_runProgram_of_large (large : Memory.programCapacity < program.length)
    (host : Host (StateM σ)) (steps : Nat) (world : σ) :
    ((runProgram host program steps).run world).1.Ends host.logger.isSome runBanner
      (some (.programTooLarge program.length Memory.programCapacity)) := by
  obtain ⟨entropy, new, now, later, same⟩ := exists_load_run host program steps world
  rw [same, Emulator.load_of_large large]
  exact ends_finish host [.text runBanner] (some _) later

theorem ends_runProgram_of_fits (fits : program.length ≤ Memory.programCapacity)
    (host : Host (StateM σ)) (world : σ) {random : RandomSource}
    (free : ((Machine.switchedOn random).loaded program).HostFree steps) :
    let stepped := ((Machine.switchedOn random).loaded program).stepUpTo steps
    ((runProgram host program steps).run world).1.Ends host.logger.isSome stepped.text
      stepped.fault? := by
  intro stepped
  obtain ⟨entropy, new, now, later, same⟩ := exists_load_run host program steps world
  obtain ⟨e, loaded, running, machine⟩ :
      ∃ e, (Emulator.ofSettings .usual entropy new).load program now = (.ok (), e) ∧
        e.interrupted = false ∧ e.machine = (Machine.switchedOn (.ofKey entropy)).loaded program :=
    ⟨_, Emulator.load_of_fits fits now, rfl, rfl⟩
  -- the loaded machines differ only in their random sources, which are behind the veil
  have veiled : e.machine.veil = ((Machine.switchedOn random).loaded program).veil := by
    simp only [machine, Machine.loaded, Machine.veil, Machine.clear]
  have ran : ((e.run (headless host) steps .zero).run later).1.Matches 0 stepped :=
    Emulator.matches_runLoop host (e := e.restartClocks (host.readings.run later).1)
      ⟨running, veiled⟩ steps 0 .zero (host.readings.run later).2 free
  rw [same, loaded, ← plainAll_runOutput ran program, ← runFault?_of_matches ran]
  exact ends_finish host _ _ _

/-- The program, run for so many steps, can end in this report: from a file of any
name, on any host, with logging on or off, and with the number of steps spelled in any
way, or left out where it is the usual one. -/
inductive Reports (program : List UInt8) : (logged : Bool) → Nat → Report → Prop
  | usual {σ : Type} (host : Host (StateM σ)) (world : σ) (file : String)
      (found : ((host.contents file).run world).1 = .ok program) :
      Reports program host.logger.isSome 10000 ((answer host ["run", file]).run world).1
  | given {σ : Type} (host : Host (StateM σ)) (world : σ) (file text : String)
      (rest : List String) {steps : Nat}
      (found : ((host.contents file).run world).1 = .ok program)
      (asked : steps? text = some steps) :
      Reports program host.logger.isSome steps
        ((answer host ("run" :: file :: text :: rest)).run world).1

theorem perform_run (host : Host (StateM σ)) (world : σ) (file : String) (steps : Nat)
    (found : ((host.contents file).run world).1 = .ok program) :
    ((perform host (.run file steps)).run world).1 =
      ((runProgram host program steps).run ((host.contents file).run world).2).1 := by
  rw [perform, StateT.run_bind]
  generalize (host.contents file).run world = read at found ⊢
  obtain ⟨_, later⟩ := read
  cases found
  rfl

/-- Whatever the words were, the report is that of the program run. -/
theorem Reports.exists_runProgram (reported : Reports program logged steps report) :
    ∃ (σ : Type) (host : Host (StateM σ)) (world : σ), host.logger.isSome = logged ∧
      report = ((runProgram host program steps).run world).1 := by
  cases reported with
  | usual host world file found =>
      refine ⟨_, host, ((host.contents file).run world).2, rfl, ?_⟩
      exact perform_run host world file usualSteps found
  | given host world file text rest found asked =>
      refine ⟨_, host, ((host.contents file).run world).2, rfl, ?_⟩
      rw [answer, ofArguments?, asked]
      exact perform_run host world file steps found

theorem Reports.ends_tooLarge (reported : Reports program logged steps report)
    (large : Memory.programCapacity < program.length) :
    report.Ends logged runBanner
      (some (.programTooLarge program.length Memory.programCapacity)) := by
  obtain ⟨σ, host, world, rfl, rfl⟩ := reported.exists_runProgram
  exact ends_runProgram_of_large large host steps world

theorem Reports.ends_stepped (reported : Reports program logged steps report)
    (fits : program.length ≤ Memory.programCapacity) {random : RandomSource}
    (free : ((Machine.switchedOn random).loaded program).HostFree steps) :
    let stepped := ((Machine.switchedOn random).loaded program).stepUpTo steps
    report.Ends logged stepped.text stepped.fault? := by
  obtain ⟨σ, host, world, rfl, rfl⟩ := reported.exists_runProgram
  exact ends_runProgram_of_fits fits host world free

/-- Every number of steps that fits into sixty-four bits can be asked for. -/
theorem exists_reports (program : List UInt8) (small : steps < UInt64.size) :
    ∃ report, Reports program false steps report := by
  let host : Host (StateM Unit) :=
    ⟨fun _ => pure (.ok program), pure 0, pure (.replicate 8 0), none⟩
  exact ⟨_, .given host () "" _ [] rfl (steps?_decimal small)⟩

/-! ## The report -/

/-- A run that has failed goes the same way with more steps to make. -/
theorem Reports.agree_of_failed {random : RandomSource} {more : Nat} {logged' : Bool}
    {report' : Report} (reported : Reports program logged steps report)
    (free : ((Machine.switchedOn random).load program).2.HostFree steps)
    (failed : report.exitCode ≠ 0) (larger : steps ≤ more)
    (reported' : Reports program logged' more report') :
    report'.exitCode = report.exitCode ∧ report'.errors = report.errors ∧
      (logged = false → logged' = false → report'.output = report.output) := by
  rcases Nat.lt_or_ge Memory.programCapacity program.length with large | fits
  · exact (reported.ends_tooLarge large).agree (reported'.ends_tooLarge large)
  · rw [Machine.load_of_fits fits] at free
    have ends := reported.ends_stepped fits free
    have fault : (((Machine.switchedOn random).loaded program).stepUpTo steps).fault? ≠ none := by
      intro none
      rw [ends.exitCode, none] at failed
      exact failed rfl
    have ends' := reported'.ends_stepped fits (Machine.hostFree_of_fault fault free more)
    rw [Machine.stepUpTo_of_fault fault larger] at ends'
    exact ends.agree ends'

/-- A run from the command line reports what comes of plain stepping.

Take any program and any number of steps that fits into sixty-four bits, the usual
one if none is given. On every host, a program that is too large is refused: the exit
code is one, the error says so, and with logging off the output is one line. Any other
program is loaded, and stepped until the steps are made or one fails. If that carries
out no instruction that reads what a host decides, the exit code is zero exactly if no
step failed, and otherwise it is one and the error is that of the step that failed. The
output, with logging off, is the first line, the number of steps that drew and the
display at the end. So a run that has failed reports the same with any larger number
of steps. -/
theorem run_reports_plain_stepping (program : List UInt8) (steps : Nat)
    (random : RandomSource) :
    let m := ((Machine.switchedOn random).load program).2
    let stepped := m.stepUpTo steps
    (steps < UInt64.size → ∃ report, Reports program false steps report) ∧
      ∀ logged report, Reports program logged steps report →
        (3584 < program.length →
          report.exitCode = 1 ∧
            report.errors =
              "Error: LargeProgram \x7b size: " ++ toString program.length ++
                ", capacity: 3584 \x7d\n" ∧
            (logged = false → report.output = "Running Bytecode Interpreter\n")) ∧
        (program.length ≤ 3584 → m.HostFree steps →
          (report.exitCode = 0 ↔ stepped.fault? = none) ∧
            (stepped.fault? = none → report.errors = "") ∧
            (∀ fault, stepped.fault? = some fault →
              report.exitCode = 1 ∧ report.errors = "Error: " ++ fault.written ++ "\n") ∧
            (logged = false →
              report.output =
                "Running Bytecode Interpreter\ndraw calls: " ++ toString stepped.draws ++ "\n" ++
                  stepped.machine.display.shown ++ "\n")) ∧
        (m.HostFree steps → report.exitCode ≠ 0 →
          ∀ more, steps ≤ more → ∀ logged' report', Reports program logged' more report' →
            report'.exitCode = report.exitCode ∧ report'.errors = report.errors ∧
              (logged = false → logged' = false → report'.output = report.output)) := by
  intro m stepped
  refine ⟨exists_reports program, fun logged report reported => ⟨?_, ?_, ?_⟩⟩
  · intro large
    have ends := reported.ends_tooLarge large
    refine ⟨ends.exitCode, ?_, ends.output⟩
    have front : "Error: " ++ "LargeProgram \x7b size: " = "Error: LargeProgram \x7b size: " := by
      decide +kernel
    have behind : ", capacity: " ++ toString 3584 ++ " \x7d" ++ "\n" =
        ", capacity: 3584 \x7d\n" := by decide +kernel
    rw [ends.errors_of_some]
    show "Error: " ++ ("LargeProgram \x7b size: " ++ toString program.length ++ ", capacity: " ++
      toString 3584 ++ " \x7d") ++ "\n" = _
    rw [← front, ← behind]
    simp only [String.append_assoc]
  · intro fits free
    have loaded : m = (Machine.switchedOn random).loaded program :=
      congrArg Prod.snd (Machine.load_of_fits fits)
    have ends : report.Ends logged stepped.text stepped.fault? := by
      have ended := reported.ends_stepped fits (loaded ▸ free)
      rw [← loaded] at ended
      exact ended
    refine ⟨?_, ?_, ?_, ends.output⟩
    · rw [ends.exitCode]
      cases stepped.fault? <;> simp
    · intro finished
      rw [finished] at ends
      exact ends.errors_of_none
    · intro fault failed
      rw [failed] at ends
      exact ⟨ends.exitCode, ends.errors_of_some⟩
  · intro free failed more larger logged' report' reported'
    exact reported.agree_of_failed free failed larger reported'

/-- The first row of the font's zero, drawn in the corner, and then a return with no call
pending: one display is drawn, and the row is on it. -/
theorem stepUpTo_row :
    let stepped := ((Machine.powerOn 0).loaded [0xD0, 0x01, 0x00, 0xEE]).stepUpTo 3
    stepped.draws = 1 ∧ stepped.fault? = some .stackUnderflow ∧
      stepped.machine.display.shown =
        String.join ("####............................................................\n" ::
          List.replicate 31
            "................................................................\n") := by
  intro stepped
  let m := (Machine.powerOn 0).loaded [0xD0, 0x01, 0x00, 0xEE]
  let drawing := Display.dark.draw 0 0 [0xF0]
  let after := { m.advance with
    display := drawing.2, registers := m.advance.registers.setFlag drawing.1 }
  have sprite : m.memory.span 0 1 = [0xF0] := by decide +kernel
  have drawn : m.step = (.ok .draw, after) := by
    refine (Machine.step_eq_ok_iff_execute (i := .draw 0 0 1) (by decide +kernel)).mpr ⟨rfl, ?_⟩
    refine Machine.execute_draw_eq_ok_iff.mpr ⟨by decide, rfl, ?_⟩
    show after = { m.advance with
      display := (Display.dark.draw 0 0 (m.memory.span 0 1)).2
      registers := m.advance.registers.setFlag
        (Display.dark.draw 0 0 (m.memory.span 0 1)).1 }
    rw [sprite]
  have failed : after.step = (.error .stackUnderflow, after.halt) :=
    Machine.step_of_refusal (i := .ret) rfl (by decide +kernel) rfl
  have made : stepped = ⟨after.halt, 1, some .stackUnderflow⟩ := by
    show m.stepUpTo 3 = _
    rw [Machine.stepUpTo_of_ok drawn, Machine.stepUpTo_of_error failed]
    rfl
  have lit (x y : Nat) : drawing.2.lit x y = decide (y % 32 = 0 ∧ x % 64 < 4) := by
    have spots : Display.spots 0 0 [0xF0] = [(0, 0), (1, 0), (2, 0), (3, 0)] := by decide +kernel
    simp only [drawing, Display.draw, spots, Display.toggleAll, Display.lit_toggle,
      Display.lit_dark]
    grind
  rw [made]
  refine ⟨rfl, rfl, ?_⟩
  show drawing.2.shown = _
  rw [← String.toList_inj, Display.shown, String.toList_ofList, String.toList_join]
  simp only [lit]
  decide +kernel

/-- A program that draws one row and then returns with no call pending, on a host
whose time moves on at every reading: the row is counted and shown, the return is
reported, and with any larger number of steps every host reports the same. -/
theorem run_reports_plain_stepping_underflow :
    let program : List UInt8 := [0xD0, 0x01, 0x00, 0xEE]
    let host : Host (StateM Nat) :=
      ⟨fun _ => pure (.ok program), modifyGet fun t => (t, t + 20000000),
        pure (Vector.replicate 8 7), none⟩
    let report := ((answer host ["run", "row.rom", "+3"]).run 0).1
    let dark := "................................................................\n"
    report.output =
        "Running Bytecode Interpreter\ndraw calls: 1\n" ++
          String.join ("####............................................................\n" ::
            List.replicate 31 dark) ++ "\n" ∧
      report.exitCode = 1 ∧ report.errors = "Error: StackUnderflow\n" ∧
      ∀ report', Reports program false 10000 report' →
        report'.exitCode = 1 ∧ report'.errors = "Error: StackUnderflow\n" ∧
          report'.output = report.output := by
  intro program host report dark
  obtain ⟨draws, fault, rows⟩ := stepUpTo_row
  obtain ⟨read, free⟩ :
      steps? "+3" = some 3 ∧ ((Machine.powerOn 0).loaded program).HostFree 3 := by
    decide +kernel
  have loaded : ((Machine.powerOn 0).load program).2 = (Machine.powerOn 0).loaded program :=
    congrArg Prod.snd (Machine.load_of_fits (by decide))
  have reported : Reports program false 3 report := .given host 0 "row.rom" "+3" [] rfl read
  obtain ⟨-, holds⟩ := run_reports_plain_stepping program 3 (.ofSeed 0)
  rw [show ((Machine.switchedOn (.ofSeed 0)).load program).2 = _ from loaded] at holds
  obtain ⟨-, plain, lasting⟩ := holds false report reported
  obtain ⟨-, -, failure, output⟩ := plain (by decide) free
  obtain ⟨code, errors⟩ := failure _ fault
  have text : "Error: " ++ Fault.stackUnderflow.written ++ "\n" = "Error: StackUnderflow\n" := by
    decide +kernel
  have front : "Running Bytecode Interpreter\ndraw calls: " ++ toString 1 ++ "\n" =
      "Running Bytecode Interpreter\ndraw calls: 1\n" := by decide +kernel
  rw [text] at errors
  refine ⟨?_, code, errors, fun report' reported' => ?_⟩
  · rw [output rfl, draws, front, rows]
  · obtain ⟨code', errors', same⟩ :=
      lasting free (by rw [code]; decide) 10000 (by decide) false report' reported'
    exact ⟨code'.trans code, errors'.trans errors, same rfl rfl⟩

end Command

end ChipEight
