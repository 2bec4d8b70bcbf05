import Cartridge.Queue
import Cartridge.Script.Step

/-!
# Run — carrying all branches of a script to their ends

One branch runs until it is over, then the one that has waited longest.  Every instruction of any
branch counts against the step limit, and a branch that forks while the queue is full ends the run.
-/

namespace Cartridge.Interpreter

variable (I : Interpreter) (mode : Mode)

/-- The queue with new branches at its end; nothing if some of them find it full. -/
def enqueue? (cap : Nat) (waiting : Queue Context) (forks : List Context) :
    Option (Queue Context) :=
  if forks.isEmpty then some waiting
  else if waiting.size + forks.length ≤ cap then some (waiting.pushAll forks)
  else none

/-- Runs `current`, then the waiting branches; `closed` holds those that are over, newest first. -/
def drain (steps : Nat) (current : Context) (waiting : Queue Context) (closed : List Context) :
    Except ScriptError (List Context) :=
  if current.isDone then
    match h : waiting.pop? with
    | none => .ok (current :: closed).reverse
    | some (next, later) =>
      have := Queue.size_of_pop h
      drain steps next later (current :: closed)
  else
    match steps with
    | 0 => .error (.budgetExhausted I.limits.maxSteps)
    | steps + 1 =>
      match I.step mode current with
      | .error fault => .error fault.cause
      | .ok advance =>
        match enqueue? I.limits.maxContexts waiting advance.forks with
        | none => .error (.contextCapExceeded I.limits.maxContexts)
        | some waiting => drain steps advance.context waiting closed
termination_by (steps, waiting.size)

/-- Every branch of a script, in the order in which they end. -/
def run (c : Context) : Except ScriptError (List Context) :=
  I.drain mode I.limits.maxSteps c (.ofList []) []

/-- Every branch that the values at hand and the answers to prompts lead to. -/
def execute (c : Context) : Except ScriptError (List Context) :=
  I.run .execute c

/-- Every branch that can be reached, whatever the game holds. -/
def explore (c : Context) : Except ScriptError (List Context) :=
  I.run .explore c

end Cartridge.Interpreter
