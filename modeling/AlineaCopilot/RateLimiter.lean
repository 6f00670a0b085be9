import AlineaCopilot.KeyedMaps
import AlineaCopilot.TransitionRuns
open AlineaCopilot.KeyedMaps AlineaCopilot.TransitionRuns

namespace AlineaCopilot.RateLimiter

structure RateLimitEntry where
  count : Nat
  resetTimeMs : Nat
deriving DecidableEq, Repr

structure Limits where
  maxRequests : Nat
  window : Nat

def auth : Limits := ⟨5,15 * 60 * 1000⟩

def api : Limits := ⟨60,60 * 1000⟩

def authenticatedAction : Limits := ⟨20,60 * 1000⟩

abbrev Entries := KeyedMap String RateLimitEntry

section Limiter
variable (limits : Limits)

-- The count of an entry whose window is not over at the time that was read.
def recorded (entries : Entries) (key : String) (now : Nat) : Nat :=
  match entries.lookup key with
  | some entry => if now < entry.resetTimeMs then entry.count else 0
  | none => 0

def check (entries : Entries) (key : String) (now : Nat) : Bool :=
  match entries.lookup key with
  | some entry => !(now < entry.resetTimeMs ∧ limits.maxRequests ≤ entry.count)
  | none => true

-- The entry both counting operations work on: a missing one or one whose window
-- is over starts a window at the time that was read.
def fresh (entries : Entries) (key : String) (now : Nat) : Bool :=
  match entries.lookup key with
  | some entry => entry.resetTimeMs ≤ now
  | none => true

def entryAt (entries : Entries) (key : String) (now : Nat) : RateLimitEntry :=
  match entries.lookup key with
  | some entry => if entry.resetTimeMs ≤ now then ⟨0,now + limits.window⟩ else entry
  | none => ⟨0,now + limits.window⟩

def increment (entry : RateLimitEntry) : RateLimitEntry := { entry with count := entry.count + 1 }

def checkAndIncrement (entries : Entries) (key : String) (now : Nat) : Entries × Bool :=
  let entry := entryAt limits entries key now
  if limits.maxRequests ≤ entry.count then (entries.insert key entry,false)
  else (entries.insert key (increment entry),true)

def recordAttempt (entries : Entries) (key : String) (now : Nat) : Entries :=
  entries.insert key (increment (entryAt limits entries key now))

-- `retain` takes one part of the map after another, so a clean-up is what it does
-- to each key, and requests may come in between.
def cleanup (entries : Entries) (key : String) (now : Nat) : Entries :=
  match entries.lookup key with
  | some entry => if now < entry.resetTimeMs then entries else entries.erase key
  | none => entries

end Limiter

-- Every operation reads the clock before it takes hold of the entry. With the
-- auth middleware the handler runs between the check and the recording.
inductive Phase where
  | entering (now : Nat)
  | handling (checked : Nat)
  | leaving (checked now : Nat)
deriving DecidableEq, Repr

-- Whether the handler will answer with a failure is part of the request.
structure Request where
  key : String
  fails : Bool
  phase : Phase
deriving DecidableEq, Repr

-- The API and the action middleware count every request, the auth middleware
-- only the ones that failed.
inductive Middleware where
  | counting
  | failuresOnly
deriving DecidableEq, Repr

structure World where
  entries : Entries
  clock : Nat
  requests : List Request
  -- When each window was started; the times at which attempts were let through
  -- that are over and counted; the times at which they were counted.
  started : List (String × Nat)
  passed : List (String × Nat)
  counted : List (String × Nat)

def start : World := ⟨∅,0,[],[],[],[]⟩

inductive Event where
  | tick (now : Nat)
  | arrive (key : String) (fails : Bool)
  | enter (key : String) (fails : Bool) (now : Nat)
  | respond (key : String) (fails : Bool) (checked : Nat)
  | record (key : String) (checked now : Nat)
  -- The time the clean-up has read may be behind the clock, too.
  | cleanup (key : String) (now : Nat)

section Requests
variable (limits : Limits) (middleware : Middleware)

def World.take (w : World) (r : Request) : World := { w with requests := w.requests.erase r }

def World.add (w : World) (r : Request) : World := { w with requests := r :: w.requests }

def World.startWindow (w : World) (key : String) (now : Nat) : World :=
  if fresh w.entries key now then { w with started := (key,now) :: w.started } else w

def step (w : World) : Event → Option World
  | .tick now => if w.clock ≤ now then some { w with clock := now } else none
  | .arrive key fails => some (w.add ⟨key,fails,.entering w.clock⟩)
  | .enter key fails now =>
    if ⟨key,fails,.entering now⟩ ∈ w.requests then
      let w := w.take ⟨key,fails,.entering now⟩
      match middleware with
      | .counting =>
        let (entries,admitted) := checkAndIncrement limits w.entries key now
        let w := { w.startWindow key now with entries := entries }
        some (if admitted then { w with passed := (key,now) :: w.passed, counted := (key,now) :: w.counted } else w)
      | .failuresOnly => some (if check limits w.entries key now then w.add ⟨key,fails,.handling now⟩ else w)
    else none
  | .respond key fails checked =>
    if ⟨key,fails,.handling checked⟩ ∈ w.requests then
      let w := w.take ⟨key,fails,.handling checked⟩
      some (if fails then w.add ⟨key,fails,.leaving checked w.clock⟩ else w)
    else none
  | .record key checked now =>
    if ⟨key,true,.leaving checked now⟩ ∈ w.requests then
      let w := w.take ⟨key,true,.leaving checked now⟩
      some { w.startWindow key now with
        entries := recordAttempt limits w.entries key now
        passed := (key,checked) :: w.passed
        counted := (key,now) :: w.counted }
    else none
  | .cleanup key now => if now ≤ w.clock then some { w with entries := cleanup w.entries key now } else none

-- When an attempt that will be counted was let through, if it was let through.
def Request.letThrough (key : String) (r : Request) : Option Nat :=
  if r.key = key ∧ r.fails then
    match r.phase with
    | .entering _ => none
    | .handling checked | .leaving checked _ => some checked
  else none

def World.pending (w : World) (key : String) : List Nat := w.requests.filterMap (·.letThrough key)

def timesOf (log : List (String × Nat)) (key : String) : List Nat :=
  log.filterMap fun attempt => if attempt.1 = key then some attempt.2 else none

-- The times at which the attempts of a key were let through: the ones the API
-- middleware admitted, the failed ones the auth middleware did.
def World.attempts (w : World) (key : String) : List Nat := timesOf w.passed key ++ w.pending key

def within (limits : Limits) (start : Nat) (times : List Nat) : Nat :=
  times.countP fun time => start ≤ time ∧ time < start + limits.window

end Requests

end AlineaCopilot.RateLimiter
