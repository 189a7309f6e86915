import Hexagony.Proofs.Interpreter
import Hexagony.Proofs.Machine.Output

namespace Hexagony

-- All that an instruction can do, whatever the output: go on without it, print a text, or end the
-- program.
theorem Machine.execute_cases (machine : Machine) (opcode : Opcode) :
    (∀ output, ({machine with output} : Machine).execute opcode =
        (.proceed, {(machine.execute opcode).2 with output})) ∨
      (∃ text, ∀ output, ({machine with output} : Machine).execute opcode =
        machine.emit (Output.appendAll output text)) ∨
      ∀ output, ({machine with output} : Machine).execute opcode =
        (.halt, {machine with output := output.finish}) := by
  cases opcode with
  | terminate => exact .inr (.inr fun _ => rfl)
  | divide | modulo =>
    simp only [execute]
    cases floorDivMod? machine.memory.getLeft machine.memory.getRight with
    | none => exact .inr (.inr fun _ => rfl)
    | some parts => exact .inl fun _ => rfl
  | writeByte =>
    refine .inr (.inl ⟨[charOfWord machine.memory.get], fun output => ?_⟩)
    simp [execute, emit, Output.appendAll]
  | writeInteger =>
    exact .inr (.inl ⟨(toString machine.memory.get.toInt).toList, fun _ => rfl⟩)
  | _ => exact .inl fun _ => rfl

namespace Interpreter
open Output
variable {plain checked : Interpreter} {target text : List Char}

def withOutput (interpreter : Interpreter) (output : Output) : Interpreter :=
  {interpreter with machine := {interpreter.machine with output}}

def ended (interpreter : Interpreter) : Interpreter :=
  {interpreter with clock := interpreter.clock.tick.halt}

theorem turn_cases (interpreter : Interpreter) :
    (∀ output, (interpreter.withOutput output).turn =
        {interpreter.turn with
          flow := .proceed, machine := {interpreter.turn.machine with output}}) ∨
      (∃ text, ∀ output, (interpreter.withOutput output).turn =
        {flow := if (Output.appendAll output text).success then .proceed else .halt
         machine := {interpreter.machine with output := Output.appendAll output text}
         pointer := interpreter.pointer
         next := interpreter.active}) ∨
      ∀ output, (interpreter.withOutput output).turn =
        {flow := .halt
         machine := {interpreter.machine with output := output.finish}
         pointer := interpreter.pointer
         next := interpreter.active} := by
  cases control : interpreter.opcode.isControl with
  | true =>
    refine .inl fun output => ?_
    have same : (interpreter.withOutput output).opcode = interpreter.opcode := rfl
    unfold turn
    rw [same]
    cases instruction : interpreter.opcode <;> rw [instruction] at control <;>
      first | rfl | cases control
  | false =>
    have command (output : Output) : (interpreter.withOutput output).turn = _ :=
      turn_of_command control
    rcases interpreter.machine.execute_cases interpreter.opcode with does | ⟨text, does⟩ | does
    · refine .inl fun output => ?_
      rw [command, turn_of_command control]
      exact congrArg (fun done => Turn.mk done.1 done.2 _ _) (does output)
    · refine .inr (.inl ⟨text, fun output => ?_⟩)
      rw [command]
      exact congrArg (fun done => Turn.mk done.1 done.2 _ _) (does output)
    · refine .inr (.inr fun output => ?_)
      rw [command]
      exact congrArg (fun done => Turn.mk done.1 done.2 _ _) (does output)

section Latched
variable {interpreter : Interpreter}

theorem success_of_turn (success : interpreter.turn.machine.output.success = true) :
    interpreter.machine.output.success = true := by
  rcases turn_cases interpreter with turns | ⟨text, turns⟩ | turns
  · have turned : interpreter.turn = _ := turns interpreter.machine.output
    rw [turned] at success
    exact success
  · have turned : interpreter.turn = _ := turns interpreter.machine.output
    rw [turned] at success
    exact success_of_appendAll success
  · have turned : interpreter.turn = _ := turns interpreter.machine.output
    rw [turned] at success
    exact success_of_finish success

theorem success_of_perform (success : interpreter.perform.machine.output.success = true) :
    interpreter.machine.output.success = true := by
  cases flow : interpreter.turn.flow with
  | halt =>
    rw [perform_of_halt flow] at success
    exact success_of_turn success
  | proceed =>
    rw [perform_of_proceed flow] at success
    exact success_of_turn success

theorem success_of_step (success : interpreter.step.machine.output.success = true) :
    interpreter.machine.output.success = true := by
  unfold step at success
  split at success
  · exact success_of_perform success
  · exact success

theorem success_of_run (interpreter : Interpreter)
    (success : interpreter.run.machine.output.success = true) :
    interpreter.machine.output.success = true := by
  refine Clocked.runFor_keeps (P := fun state : Interpreter =>
    state.machine.output.success = true → interpreter.machine.output.success = true) ?_ id _ success
  intro state earlier stepped
  exact earlier (success_of_step stepped)

theorem success_of_longer {shorter longer : Nat} (before : shorter ≤ longer)
    (success : (interpreter.setBudget (some longer)).run.machine.output.success = true) :
    (interpreter.setBudget (some shorter)).run.machine.output.success = true := by
  have resumed := run_again interpreter shorter longer
  rw [Nat.max_eq_right before] at resumed
  have ended : ((interpreter.setBudget (some shorter)).run.setBudget (some longer)).run.machine =
      (interpreter.setBudget (some longer)).run.machine := by
    rw [resumed]
    rfl
  rw [← ended] at success
  exact success_of_run ((interpreter.setBudget (some shorter)).run.setBudget (some longer)) success

end Latched

-- All that one action can do, whatever the output as long as it is in order: print a text, perhaps
-- an empty one, and go on if that is in order as well, or end the program.
theorem perform_cases (interpreter : Interpreter) :
    (∃ (text : List Char) (after : Interpreter), after.clock = interpreter.clock.tick ∧
        ∀ output : Output, output.success = true →
          (interpreter.withOutput output).perform =
            if (output.appendAll text).success then after.withOutput (output.appendAll text)
            else interpreter.ended.withOutput (output.appendAll text)) ∨
      ∀ output : Output, (interpreter.withOutput output).perform =
        interpreter.ended.withOutput output.finish := by
  rcases turn_cases interpreter with turns | ⟨text, turns⟩ | turns
  · have proceeds (output : Output) : (interpreter.withOutput output).turn.flow = .proceed := by
      rw [turns]
    refine .inl ⟨[], (interpreter.withOutput {}).perform, ?_, ?_⟩
    · rw [perform_of_proceed (proceeds _)]
      rfl
    · intro output success
      rw [appendAll, if_pos success, perform_of_proceed (proceeds _),
        perform_of_proceed (proceeds _), turns, turns]
      rfl
  · refine .inl ⟨text, {interpreter with
      pointers := interpreter.pointers.set interpreter.active
        (advance interpreter.grid interpreter.machine interpreter.pointer) interpreter.active.isLt
      clock := interpreter.clock.tick}, rfl, ?_⟩
    intro output _
    cases success : (output.appendAll text).success with
    | true =>
      rw [perform_of_proceed (by simp [turns, success]), turns]
      rfl
    | false =>
      rw [perform_of_halt (by simp [turns, success]), turns]
      rfl
  · refine .inr fun output => ?_
    rw [perform_of_halt (by rw [turns]), turns]
    rfl

-- How a run that is checked against a target stands beside the same run unchecked, when the latter
-- has written the text: they differ in nothing but the output, or the checked one has already
-- ended over a character out of place.
inductive Compared (target text : List Char) (plain checked : Interpreter) : Prop where
  | together (going : plain.clock.halted = false)
      (same : checked = plain.withOutput checked.machine.output)
      (judges : Judges target text checked.machine.output)
      (success : checked.machine.output.success = true)
  | finished (ceased : plain.clock.halted = true)
      (same : checked = plain.withOutput checked.machine.output)
      (verdict : checked.machine.output.success = true ↔ Accepts target text)
  | refused (ceased : checked.clock.halted = true)
      (failed : checked.machine.output.success = false)
      (misfits : ¬Fits target text)
      (earlier : checked.clock.ticks ≤ plain.clock.ticks)

theorem perform_compared (target : List Char) (records : Records text plain.machine.output)
    (going : plain.clock.halted = false) :
    ∃ more, Records (text ++ more) plain.perform.machine.output ∧
      ∀ output, Judges target text output → output.success = true →
        Compared target (text ++ more) plain.perform (plain.withOutput output).perform := by
  rcases perform_cases plain with ⟨more, after, ticked, performs⟩ | performs
  · have written := appendAll_records records more
    have freely : plain.perform = _ := performs plain.machine.output records.success
    rw [if_pos written.success] at freely
    rw [freely]
    refine ⟨more, written, ?_⟩
    intro output judges success
    have judged := appendAll_judges judges success more
    rw [performs output success]
    cases well : (output.appendAll more).success with
    | true =>
      refine .together ?_ rfl judged well
      change after.clock.halted = false
      rw [ticked]
      exact going
    | false =>
      refine .refused rfl well ?_ ?_
      · intro fits
        rw [judged.success.mpr fits] at well
        cases well
      · change _ ≤ after.clock.ticks
        rw [ticked]
        exact Nat.le_refl _
  · have freely : plain.perform = _ := performs plain.machine.output
    rw [freely]
    refine ⟨[], ?_, ?_⟩
    · rw [List.append_nil]
      exact finish_records records
    · intro output judges _
      rw [performs output, List.append_nil]
      exact .finished rfl rfl (finish_judges judges)

theorem Compared.ceases (compared : Compared target text plain checked)
    (ceased : plain.clock.halted = true) : checked.clock.halted = true := by
  cases compared with
  | together going =>
    rw [ceased] at going
    cases going
  | finished _ same =>
    rw [same]
    exact ceased
  | refused ceased => exact ceased

theorem next_compared (records : Records text plain.machine.output)
    (compared : Compared target text plain checked) :
    ∃ more, Records (text ++ more) (Resumable.next plain).machine.output ∧
      Compared target (text ++ more) (Resumable.next plain) (Resumable.next checked) := by
  cases ceased : plain.clock.halted with
  | true =>
    refine ⟨[], ?_⟩
    rw [Resumable.next_of_halted ceased, Resumable.next_of_halted (compared.ceases ceased),
      List.append_nil]
    exact ⟨records, compared⟩
  | false =>
    obtain ⟨more, written, follows⟩ := perform_compared target records ceased
    refine ⟨more, ?_⟩
    rw [Resumable.next_of_going ceased]
    refine ⟨written, ?_⟩
    cases compared with
    | together going same judges success =>
      have alive : checked.clock.halted = false := by
        rw [same]
        exact ceased
      rw [Resumable.next_of_going alive, same]
      exact follows _ judges success
    | finished ceases =>
      rw [ceased] at ceases
      cases ceases
    | refused ends failed misfits earlier =>
      rw [Resumable.next_of_halted ends]
      refine .refused ends failed ?_ ?_
      · intro fits
        exact misfits (fits_append_left fits)
      · change _ ≤ plain.perform.clock.ticks
        rw [perform_ticks]
        omega

theorem iterate_compared (records : Records text plain.machine.output)
    (compared : Compared target text plain checked) (n : Nat) :
    ∃ written, Records written (Resumable.next^[n] plain).machine.output ∧
      Compared target written (Resumable.next^[n] plain) (Resumable.next^[n] checked) := by
  induction n with
  | zero => exact ⟨text, records, compared⟩
  | succ n ih =>
    obtain ⟨written, records, compared⟩ := ih
    obtain ⟨more, records, compared⟩ := next_compared records compared
    refine ⟨written ++ more, ?_⟩
    rw [Function.iterate_succ_apply', Function.iterate_succ_apply']
    exact ⟨records, compared⟩

def Ends (start final : Interpreter) : Prop :=
  final.clock.halted = true ∧ ∃ n, step^[n] start = final

section FromTheStart
variable {grid : Grid} {input : Input} {target : String}

theorem steps_compared (grid : Grid) (input : Input) (target : String) (n : Nat) :
    ∃ text, Records text (step^[n] (ofGrid grid input)).machine.output ∧
      Compared target.toList text (step^[n] (ofGrid grid input))
        (step^[n] ((ofGrid grid input).setTarget (some target))) := by
  have records : Records [] (ofGrid grid input).machine.output := ⟨rfl, rfl, rfl⟩
  have judges : Judges target.toList []
      ((ofGrid grid input).setTarget (some target)).machine.output :=
    ⟨rfl, iff_of_true rfl (fits_nil _), fun _ => (Nat.min_zero _).symm⟩
  have freely : step^[n] (ofGrid grid input) = _ := Resumable.iterate_step rfl n
  have strictly : step^[n] ((ofGrid grid input).setTarget (some target)) = _ :=
    Resumable.iterate_step rfl n
  rw [freely, strictly]
  exact iterate_compared records (.together rfl rfl judges rfl) n

theorem judged_of_ends {final : Interpreter} (ends : (ofGrid grid input).Ends final)
    (target : String) :
    ∃ judged, ((ofGrid grid input).setTarget (some target)).Ends judged ∧
      judged.clock.ticks ≤ final.clock.ticks ∧
      (judged.machine.output.success = true ↔
        Accepts target.toList final.machine.output.written.toList) ∧
      (judged.machine.output.success = true → judged = final.withOutput judged.machine.output) := by
  obtain ⟨ceased, n, rfl⟩ := ends
  obtain ⟨text, records, compared⟩ := steps_compared grid input target n
  refine ⟨_, ⟨compared.ceases ceased, n, rfl⟩, ?_⟩
  rw [records.written]
  cases compared with
  | together going =>
    rw [ceased] at going
    cases going
  | finished _ same verdict =>
    refine ⟨?_, verdict, fun _ => same⟩
    rw [same]
    exact Nat.le_refl _
  | refused _ failed misfits earlier =>
    refine ⟨earlier, ?_, ?_⟩
    · exact iff_of_false (by simp [failed]) fun accepts => misfits accepts.fits
    · intro success
      rw [failed] at success
      cases success

theorem failed_of_endless (endless : ∀ final, ¬(ofGrid grid input).Ends final) {final : Interpreter}
    (ends : ((ofGrid grid input).setTarget (some target)).Ends final) :
    final.machine.output.success = false := by
  obtain ⟨ceased, n, rfl⟩ := ends
  obtain ⟨text, _, compared⟩ := steps_compared grid input target n
  cases compared with
  | together going same =>
    rw [same] at ceased
    cases going.symm.trans ceased
  | finished ceases => exact absurd ⟨ceases, n, rfl⟩ (endless _)
  | refused _ failed => exact failed

end FromTheStart

-- Checking the output as it is printed comes to the same as reading it afterwards.
theorem checked_verdict (source : String) (input : Input) (target : String) :
    (∀ final, (ofSource source input).Ends final →
        (Accepts target.toList final.machine.output.written.toList →
          ∃ output : Output, output.success = true ∧
            ((ofSource source input).setTarget (some target)).Ends (final.withOutput output)) ∧
        (¬Accepts target.toList final.machine.output.written.toList →
          ∃ early, ((ofSource source input).setTarget (some target)).Ends early ∧
            early.clock.ticks ≤ final.clock.ticks ∧ early.machine.output.success = false)) ∧
      ((∀ final, ¬(ofSource source input).Ends final) →
        ∀ final, ((ofSource source input).setTarget (some target)).Ends final →
          final.machine.output.success = false) := by
  refine ⟨?_, fun endless final ends => failed_of_endless endless ends⟩
  intro final ends
  obtain ⟨judged, ceases, earlier, verdict, same⟩ := judged_of_ends ends target
  refine ⟨?_, ?_⟩
  · intro accepts
    have success := verdict.mpr accepts
    refine ⟨_, success, ?_⟩
    rw [← same success]
    exact ceases
  · intro refused
    refine ⟨judged, ceases, earlier, ?_⟩
    exact Bool.eq_false_iff.mpr fun success => refused (verdict.mp success)

def printing (output : Output) (ticks : Nat) : Interpreter :=
  {(ofSource ";" {}).withOutput output with clock := {ticks}}

theorem step_printing {output : Output} (records : Records text output) (ticks : Nat) :
    (printing output ticks).step = printing (output.append (Machine.charOfWord 0)) (ticks + 1) := by
  have instruction : (printing output ticks).opcode = .writeByte := by
    change (ofSource ";" {}).opcode = .writeByte
    decide +kernel
  have stays : (ofSource ";" {}).pointers.set 0
      (advance (ofSource ";" {}).grid {} (ofSource ";" {}).pointer) =
        (ofSource ";" {}).pointers := by
    decide +kernel
  have turned : (printing output ticks).turn =
      {flow := .proceed
       machine := {output := output.append (Machine.charOfWord 0)}
       pointer := (ofSource ";" {}).pointer
       next := 0} := by
    have well := (append_records records (Machine.charOfWord 0)).success
    rw [turn_of_command (by rw [instruction]; rfl), instruction]
    change Turn.mk (if (output.append (Machine.charOfWord 0)).success then _ else _) _ _ _ = _
    rw [if_pos well]
    rfl
  rw [step_of_running rfl rfl, perform_of_proceed (by rw [turned]), turned]
  change Interpreter.mk _ _ ((ofSource ";" {}).pointers.set 0
      (advance (ofSource ";" {}).grid {} (ofSource ";" {}).pointer)) _ _ = _
  rw [stays]
  rfl

theorem iterate_printing (n : Nat) :
    ∃ text output ticks, Records text output ∧
      step^[n] (ofSource ";" {}) = printing output ticks := by
  induction n with
  | zero => exact ⟨[], {}, 0, ⟨rfl, rfl, rfl⟩, rfl⟩
  | succ n ih =>
    obtain ⟨text, output, ticks, records, reached⟩ := ih
    refine ⟨_, _, ticks + 1, append_records records (Machine.charOfWord 0), ?_⟩
    rw [Function.iterate_succ_apply', reached, step_printing records]

-- One program that ends, under a target it meets and one it does not, and one that prints for ever,
-- where the target puts an end to it.
theorem checked_verdict_trailing :
    let start := ofSource "A;\x7b10;@" {}
    let ended := step^[7] start
    let endless := ofSource ";" {}
    let stopped := step^[1] (endless.setTarget (some "A"))
    (start.Ends ended ∧ Accepts ['A'] ended.machine.output.written.toList ∧
        ∃ output : Output, output.success = true ∧
          (start.setTarget (some "A")).Ends (ended.withOutput output)) ∧
      (¬Accepts ['B'] ended.machine.output.written.toList ∧
        ∃ early, (start.setTarget (some "B")).Ends early ∧
          early.clock.ticks ≤ ended.clock.ticks ∧ early.machine.output.success = false) ∧
      (∀ final, ¬endless.Ends final) ∧ (endless.setTarget (some "A")).Ends stopped ∧
        stopped.machine.output.success = false := by
  intro start ended endless stopped
  have ends : start.Ends ended := ⟨by decide +kernel, 7, rfl⟩
  have printed : ended.machine.output.written.toList = ['A', '\n'] := by decide +kernel
  have accepts : Accepts ['A'] ended.machine.output.written.toList := by
    rw [printed]
    exact ⟨['A'], ['\n'], rfl, by simp [Stands], by simp⟩
  have refuses : ¬Accepts ['B'] ended.machine.output.written.toList := by
    rw [printed]
    intro accepts
    simpa [Stands, Suits] using accepts.fits 0 'A' rfl
  have never : ∀ final, ¬endless.Ends final := by
    rintro _ ⟨ceased, n, rfl⟩
    obtain ⟨_, _, _, _, reached⟩ := iterate_printing n
    rw [show step^[n] endless = _ from reached] at ceased
    cases ceased
  have halts : (endless.setTarget (some "A")).Ends stopped := ⟨by decide +kernel, 1, rfl⟩
  exact ⟨⟨ends, accepts, ((checked_verdict "A;\x7b10;@" {} "A").1 ended ends).1 accepts⟩,
    ⟨refuses, ((checked_verdict "A;\x7b10;@" {} "B").1 ended ends).2 refuses⟩,
    never, halts, (checked_verdict ";" {} "A").2 never _ halts⟩

end Interpreter
end Hexagony
