import LineScript.Library.Args
import LineScript.Machine.Objects
import LineScript.Machine.Variables

/-!
# Library: time

The clock moves on while a script sleeps, and by a little whenever it is looked at.
-/

namespace LineScript.Library

open Machine

/-- How far the clock moves when it is looked at, in microseconds. -/
def lookTime : Nat := 1

/-- Lets time pass, in microseconds. -/
def elapse (microseconds : Nat) : Exec Unit :=
  modify fun machine =>
    { machine with host := { machine.host with time := machine.host.time + microseconds } }

/-- The time, in microseconds. -/
def readClock : Exec Nat := do
  elapse lookTime
  return (← get).host.time

/-- Waits for some milliseconds; a negative number is no wait. -/
def sleep (args : Args) : Exec Value := do
  elapse ((args.int 0).toInt.toNat * 1000)
  return .number 1

/-- A new timer. -/
def timerInit : Exec Value := do
  return .handle (← addObject (.timer (← readClock)))

/-- The milliseconds since a timer was started. -/
def timerDiff (args : Args) : Exec Value := do
  match (← get).objectOf? (args.value 0) with
  | some (.timer started) =>
    return .double (Float.ofNat ((← readClock) - started) / 1000)
  | _ =>
    Machine.setError 1
    return .number 0

end LineScript.Library
