import Mathlib.Algebra.Ring.Nat
import Mathlib.Data.List.Sort
import Mathlib.Logic.Function.Basic
import AlineaCopilot.KeyedMaps
open AlineaCopilot.KeyedMaps

namespace AlineaCopilot.Pairing

def PAIRING_CODE_LENGTH : Nat := 6
def PAIRING_CODE_TTL : Int := 10 * 60 * 1000

inductive PairingStatus where
  | pending
  | approved
  | rejected
  | expired
deriving DecidableEq, Repr

structure PlatformUser where
  platformUserId : String
  platformType : String
deriving DecidableEq, Repr

structure PairingCodeRow where
  code : String
  user : PlatformUser
  displayName : Option String
  requestedAt : Int
  expiresAt : Int
  status : PairingStatus
deriving DecidableEq, Repr

structure AssistantUserRow where
  id : String
  user : PlatformUser
  displayName : Option String
  authorizedAt : Int
deriving DecidableEq, Repr

inductive DbError where
  | notFound (text : String)
  | conflict (text : String)
  | query
deriving DecidableEq, Repr

inductive ChannelError where
  | pairingNotFound (code : String)
  | pairingExpired (code : String)
  | pairingAlreadyProcessed (code : String)
  | database (error : DbError)
deriving DecidableEq, Repr

-- The two tables. The code is the primary key of the first.
structure Repository where
  pairings : KeyedMap String PairingCodeRow
  users : List AssistantUserRow

section Repository

def Repository.getUserByPlatform (repo : Repository) (user : PlatformUser) : Option AssistantUserRow :=
  repo.users.find? (·.user = user)

def Repository.createUser (repo : Repository) (row : AssistantUserRow) : Except DbError Repository :=
  if repo.users.any fun other => other.id = row.id ∨ other.user = row.user then
    .error (.conflict s!"User '{row.user.platformUserId}' on platform '{row.user.platformType}' already exists")
  else .ok { repo with users := repo.users ++ [row] }

def Repository.createPairing (repo : Repository) (row : PairingCodeRow) : Except DbError Repository :=
  match repo.pairings.lookup row.code with
  | some _ => .error (.conflict s!"Pairing code '{row.code}' already exists")
  | none => .ok { repo with pairings := repo.pairings.insert row.code row }

def Repository.getPendingPairings (repo : Repository) : List PairingCodeRow :=
  ((values repo.pairings).filter (·.status = .pending)).insertionSort fun a b => b.requestedAt ≤ a.requestedAt

def Repository.getPairingByCode (repo : Repository) (code : String) : Option PairingCodeRow := repo.pairings.lookup code

def Repository.updatePairingStatus (repo : Repository) (code : String) (status : PairingStatus) : Except DbError Repository :=
  match repo.pairings.lookup code with
  | none => .error (.notFound s!"Pairing code '{code}' not found")
  | some row => .ok { repo with pairings := repo.pairings.insert code { row with status := status } }

def PairingCodeRow.cleanup (now : Int) (row : PairingCodeRow) : PairingCodeRow :=
  if row.status = .pending ∧ row.expiresAt ≤ now then { row with status := .expired } else row

def Repository.cleanupExpiredPairings (repo : Repository) (now : Int) : Repository :=
  { repo with pairings := mapValues (PairingCodeRow.cleanup now) repo.pairings }

end Repository

-- `{num:0>6}` of the number modulo a million.
def generatePairingCode (num : Nat) : String :=
  let digits := Nat.toDigits 10 (num % 10 ^ PAIRING_CODE_LENGTH)
  String.ofList (List.replicate (PAIRING_CODE_LENGTH - digits.length) '0' ++ digits)

inductive Verdict where
  | approve
  | reject
deriving DecidableEq, Repr

structure Requester where
  user : PlatformUser
  displayName : Option String
deriving DecidableEq, Repr

-- A call between its accesses to the repository and the clock.
inductive Call where
  | idle
  | listing (requester : Requester)
  | expiring (requester : Requester) (codes : List String)
  | creating (row : PairingCodeRow)
  | requested (result : Except ChannelError String)
  | reading (verdict : Verdict) (code : String)
  | checking (verdict : Verdict) (code : String) (row : PairingCodeRow)
  | marking (verdict : Verdict) (code : String)
  | authorizing (code : String) (row : AssistantUserRow)
  | finishing (code : String) (row : AssistantUserRow)
  | rejecting (code : String)
  | over (verdict : Verdict) (code : String) (result : Except ChannelError Unit)

inductive ChannelEvent where
  | pairingRequested (code : String) (requester : Requester) (expiresAt : Int)
  | userAuthorized (id : String) (requester : Requester)
deriving DecidableEq, Repr

structure World where
  repo : Repository
  now : Int
  calls : Nat → Call
  events : List ChannelEvent

-- A step of a call may find the repository failing; it takes a random number
-- and a fresh id where it needs them.
inductive Action where
  | request (n : Nat) (requester : Requester)
  | decide (n : Nat) (verdict : Verdict) (code : String)
  | go (n : Nat) (fails : Bool) (num : Nat) (id : String)
  | cleanup (now : Int)
  | tick (ms : Nat)

section Steps

def World.call (w : World) (n : Nat) (call : Call) : World := { w with calls := Function.update w.calls n call }

def World.stores (w : World) (repo : Repository) : World := { w with repo := repo }

def World.publish (w : World) (event : ChannelEvent) : World := { w with events := w.events ++ [event] }

-- What a repository call gives when it is made, or when it fails.
def attempt (fails : Bool) (result : Except DbError Repository) : Except DbError Repository :=
  if fails then .error .query else result

def World.advance (w : World) (n : Nat) (fails : Bool) (num : Nat) (id : String) : Option World :=
  match w.calls n with
  | .listing requester =>
    if fails then some (w.call n (.requested (.error (.database .query))))
    else some (w.call n (.expiring requester ((w.repo.getPendingPairings.filter (·.user = requester.user)).map (·.code))))
  | .expiring requester (code :: codes) =>
    match attempt fails (w.repo.updatePairingStatus code .expired) with
    | .ok repo => some ((w.stores repo).call n (.expiring requester codes))
    | .error error => some (w.call n (.requested (.error (.database error))))
  | .expiring requester [] =>
    some (w.call n (.creating ⟨generatePairingCode num,requester.user,requester.displayName,w.now,w.now + PAIRING_CODE_TTL,.pending⟩))
  | .creating row =>
    match attempt fails (w.repo.createPairing row) with
    | .ok repo => some (((w.stores repo).publish (.pairingRequested row.code ⟨row.user,row.displayName⟩ row.expiresAt)).call n
        (.requested (.ok row.code)))
    | .error error => some (w.call n (.requested (.error (.database error))))
  | .reading verdict code =>
    if fails then some (w.call n (.over verdict code (.error (.database .query))))
    else
      match w.repo.getPairingByCode code with
      | none => some (w.call n (.over verdict code (.error (.pairingNotFound code))))
      | some row => some (w.call n (.checking verdict code row))
  | .checking verdict code row =>
    if row.status ≠ .pending then some (w.call n (.over verdict code (.error (.pairingAlreadyProcessed code))))
    else if row.expiresAt ≤ w.now then some (w.call n (.marking verdict code))
    else
      match verdict with
      | .approve => some (w.call n (.authorizing code ⟨id,row.user,row.displayName,w.now⟩))
      | .reject => some (w.call n (.rejecting code))
  -- What comes of the marking is ignored.
  | .marking verdict code =>
    let ended := Call.over verdict code (.error (.pairingExpired code))
    match attempt fails (w.repo.updatePairingStatus code .expired) with
    | .ok repo => some ((w.stores repo).call n ended)
    | .error _ => some (w.call n ended)
  | .authorizing code row =>
    match attempt fails (w.repo.createUser row) with
    | .ok repo => some ((w.stores repo).call n (.finishing code row))
    | .error error => some (w.call n (.over .approve code (.error (.database error))))
  | .finishing code row =>
    match attempt fails (w.repo.updatePairingStatus code .approved) with
    | .ok repo => some (((w.stores repo).publish (.userAuthorized row.id ⟨row.user,row.displayName⟩)).call n
        (.over .approve code (.ok ())))
    | .error error => some (w.call n (.over .approve code (.error (.database error))))
  | .rejecting code =>
    match attempt fails (w.repo.updatePairingStatus code .rejected) with
    | .ok repo => some ((w.stores repo).call n (.over .reject code (.ok ())))
    | .error error => some (w.call n (.over .reject code (.error (.database error))))
  | .idle | .requested _ | .over _ _ _ => none

def step (w : World) : Action → Option World
  | .request n requester => if w.calls n matches .idle then some (w.call n (.listing requester)) else none
  | .decide n verdict code => if w.calls n matches .idle then some (w.call n (.reading verdict code)) else none
  | .go n fails num id => w.advance n fails num id
  -- The clock is read before the rows are.
  | .cleanup now => if now ≤ w.now then some (w.stores (w.repo.cleanupExpiredPairings now)) else none
  | .tick ms => some { w with now := w.now + ms }

def start (now : Int) : World := ⟨⟨∅,[]⟩,now,fun _ => .idle,[]⟩

def World.isUserAuthorized (w : World) (user : PlatformUser) : Bool := (w.repo.getUserByPlatform user).isSome

end Steps

end AlineaCopilot.Pairing
