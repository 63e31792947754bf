import SealedDownload.Transfer

/-! A scripted transport in virtual time. Each call takes the next step of its script: it may wait, it
    reports progress, and then it hangs, fails, names a file that is not there, or hands one over. A
    call that obeys ends as soon as it is found to be cancelled before a report or while it waits. -/

namespace SealedDownload.Simulation

/-- The longest that a timer runs, in milliseconds: thirty years of 365 days. -/
def longestTimer : Nat := 30 * 365 * 86400 * 1000

/-- When a timer goes off that is set at a time for so many milliseconds. -/
def timer (now millis : Nat) : Nat := now + min millis longestTimer

/-- How a call ends. -/
inductive Finale where
  | hang
  | fail (failure : Failure)
  | ghost
  | file (bytes : Octets)

/-- What one call does. -/
structure ScriptStep where
  /-- how many milliseconds it waits first -/
  latency : Option Nat
  obeys : Bool
  reports : List (Nat × Option Nat)
  finale : Finale

/-- What a call does when the script has ended: a small file arrives at once. -/
def ScriptStep.standard : ScriptStep :=
  ⟨none, true, [(1024, some 1024)], .file (List.replicate 1024 7)⟩

/-- A call that is going on. -/
structure Running where
  step : ScriptStep
  /-- until when it waits -/
  due : Option Nat
  reports : List (Nat × Option Nat)

/-- A call begins. -/
def Running.start (now : Nat) (step : ScriptStep) : Running :=
  ⟨step, step.latency.map (timer now), step.reports⟩

/-- What a call does next. -/
inductive Move where
  /-- nothing before a time, or before it is cancelled -/
  | wait (due : Option Nat)
  | report (completed : Nat) (total : Option Nat) (rest : Running)
  | settle (finale : Finale)

/-- The next move of a call at a time; `stopped` tells whether its token is cancelled. -/
def Running.next (call : Running) (now : Nat) (stopped : Bool) : Move :=
  let late := match call.due with
    | some due => due ≤ now
    | none => true
  if call.step.obeys && stopped && (call.due.isSome || !call.reports.isEmpty) then
    .settle (.fail .cancelled)
  else if !late then .wait call.due
  else match call.reports with
    | (completed, total) :: reports =>
      .report completed total { call with due := none, reports }
    | [] => match call.step.finale with
      | .hang => if stopped then .settle (.fail .cancelled) else .wait none
      | finale => .settle finale

/-- A record of a call. -/
structure CallRecord where
  time : Nat
  request : TransportRequest
  resume : Option ResumeToken

/-- The scripts that are left, by path, and a record of what has happened. -/
structure ScriptedTransport where
  scripts : List (String × List ScriptStep)
  calls : List CallRecord
  discarded : List (Nat × ResumeToken)
  /-- how many calls are going on -/
  running : Nat
  /-- how many have gone on at most -/
  peak : Nat

namespace ScriptedTransport

/-- The folder of the files that are handed over. -/
def folder : Path := "transport"

/-- No scripts. -/
def empty : ScriptedTransport := ⟨[], [], [], 0, 0⟩

/-- Adds to the script of a path. -/
def append (s : ScriptedTransport) (path : String) (steps : List ScriptStep) : ScriptedTransport :=
  let old := (s.scripts.lookup path).getD []
  { s with scripts := (path, old ++ steps) :: s.scripts.filter (·.1 ≠ path) }

/-- A call takes the next step of its path. -/
def call (s : ScriptedTransport) (now : Nat) (request : TransportRequest) (resume : Option ResumeToken) :
    Running × ScriptedTransport :=
  let script := (s.scripts.lookup request.path).getD []
  let step := script.headD .standard
  (.start now step,
    { s with
      scripts := (request.path, script.drop 1) :: s.scripts.filter (·.1 ≠ request.path)
      calls := s.calls ++ [⟨now, request, resume⟩]
      running := s.running + 1
      peak := max s.peak (s.running + 1) })

/-- A call is over. -/
def ended (s : ScriptedTransport) : ScriptedTransport := { s with running := s.running - 1 }

/-- A token is given up. -/
def discard (s : ScriptedTransport) (now : Nat) (token : ResumeToken) : ScriptedTransport :=
  { s with discarded := s.discarded ++ [(now, token)] }

/-- The outcome of a finale, and the content of the file that it hands over. -/
def outcome (finale : Finale) (files : Files) : Except Failure Path × Option Octets :=
  let path := files.nextPath folder "download"
  match finale with
  | .hang => (.error .cancelled, none)
  | .fail failure => (.error failure, none)
  | .ghost => (.ok path, none)
  | .file bytes => (.ok path, some bytes)

/-- The calls in the order of their times and paths. -/
def sortedCalls (s : ScriptedTransport) : List CallRecord :=
  s.calls.mergeSort fun a b => a.time < b.time || (a.time = b.time && a.request.path ≤ b.request.path)

/-- Whether the bytes of one token come before those of another. -/
def precedes : Octets → Octets → Bool
  | [], _ => true
  | _ :: _, [] => false
  | a :: as, b :: bs => a < b || (a = b && precedes as bs)

/-- The tokens that were given up, in the order of their times and bytes. -/
def sortedDiscards (s : ScriptedTransport) : List (Nat × ResumeToken) :=
  s.discarded.mergeSort fun a b => a.1 < b.1 || (a.1 = b.1 && precedes a.2.bytes b.2.bytes)

end ScriptedTransport
end SealedDownload.Simulation
