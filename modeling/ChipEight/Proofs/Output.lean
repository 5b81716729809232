/-
# Output without its records

With logging off, the output of a command is what the program itself has to say: the
texts among its pieces, one behind the other. The exit code and the standard error of
a command do not depend on its output at all, so they are the same whether there is a
log or not.
-/

import ChipEight.Command.Perform
import ChipEight.Proofs.FaultTexts

namespace ChipEight

namespace Printed

/-- What a piece shows where there is no log. -/
def plain : Printed → String
  | .text said => said
  | .log _ => ""

/-- What pieces show where there is no log, one behind the other. -/
def plainAll : List Printed → String
  | [] => ""
  | piece :: rest => piece.plain ++ plainAll rest

theorem plainAll_append (pieces pieces' : List Printed) :
    plainAll (pieces ++ pieces') = plainAll pieces ++ plainAll pieces' := by
  induction pieces with
  | nil => rw [List.nil_append, plainAll, String.empty_append]
  | cons piece rest ih => rw [List.cons_append, plainAll, plainAll, ih, String.append_assoc]

@[simp]
theorem plainAll_map_log (records : List LogRecord) : plainAll (records.map .log) = "" := by
  induction records with
  | nil => rfl
  | cons record rest ih =>
      rw [List.map_cons, plainAll, ih]
      rfl

end Printed

namespace Host

variable {m : Type → Type} [Monad m] {host : Host m}

theorem render_of_quiet (quiet : host.logger = none) (piece : Printed) :
    host.render piece = pure piece.plain := by
  cases piece with
  | text said => rfl
  | log record =>
      rw [render, quiet]
      rfl

theorem renderAll_of_quiet [LawfulMonad m] (quiet : host.logger = none) (pieces : List Printed) :
    host.renderAll pieces = pure (Printed.plainAll pieces) := by
  induction pieces with
  | nil => rfl
  | cons piece rest ih =>
      simp only [renderAll, render_of_quiet quiet, ih, pure_bind, Printed.plainAll]

end Host

/-- The report ends with this fault, or without one. Where logging is off, its output is
this text and nothing else. -/
structure Report.Ends (report : Report) (logged : Bool) (text : String)
    (fault? : Option Fault) : Prop where
  eq_ending : report = .ending report.output fault?
  output : logged = false → report.output = text

namespace Report

variable {report : Report} {logged : Bool} {text : String} {fault : Fault} {fault? : Option Fault}

theorem Ends.exitCode (ends : report.Ends logged text fault?) :
    report.exitCode = if fault?.isSome then 1 else 0 := by
  rw [ends.eq_ending]
  cases fault? <;> rfl

theorem Ends.errors_of_none (ends : report.Ends logged text none) : report.errors = "" := by
  rw [ends.eq_ending]
  rfl

theorem Ends.errors_of_some (ends : report.Ends logged text (some fault)) :
    report.errors = "Error: " ++ fault.written ++ "\n" := by
  rw [ends.eq_ending, ending, failure, fault.record_eq_written]

/-- Reports that end alike have the same code and the same errors. With logging off they
have the same output. -/
theorem Ends.agree {report' : Report} {logged' : Bool} (ends : report.Ends logged text fault?)
    (ends' : report'.Ends logged' text fault?) :
    report'.exitCode = report.exitCode ∧ report'.errors = report.errors ∧
      (logged = false → logged' = false → report'.output = report.output) := by
  refine ⟨ends'.exitCode.trans ends.exitCode.symm, ?_, fun quiet quiet' => ?_⟩
  · cases fault? with
    | none => rw [ends.errors_of_none, ends'.errors_of_none]
    | some fault => rw [ends.errors_of_some, ends'.errors_of_some]
  · rw [ends.output quiet, ends'.output quiet']

end Report

namespace Command

variable {σ : Type} (host : Host (StateM σ))

/-- A command ends with the fault it is given. With logging off, it has written the texts
of its output. -/
theorem ends_finish (output : List Printed) (fault? : Option Fault) (world : σ) :
    ((finish host output fault?).run world).1.Ends host.logger.isSome
      (Printed.plainAll output) fault? := by
  have made : ((finish host output fault?).run world).1 =
      .ending ((host.renderAll output).run world).1 fault? := rfl
  have shown (text : String) : (Report.ending text fault?).output = text := by
    cases fault? <;> rfl
  constructor
  · rw [made, shown]
  · intro quiet
    have off : host.logger = none :=
      Option.isNone_iff_eq_none.mp (Option.isSome_eq_false_iff.mp quiet)
    rw [made, shown, Host.renderAll_of_quiet off]
    rfl

end Command

end ChipEight
