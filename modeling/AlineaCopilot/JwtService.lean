import AlineaCopilot.InterleavedRequests
import AlineaCopilot.KeyedMaps
open AlineaCopilot.KeyedMaps AlineaCopilot.InterleavedRequests

namespace AlineaCopilot.JwtService

def tokenExpiry : Nat := 24 * 60 * 60

def jwtIssuer : String := "aionui"

def jwtAudience : String := "aionui-webui"

structure TokenPayload where
  userId : String
  username : String
  iat : Nat
  exp : Nat
  iss : String
  aud : String
deriving DecidableEq, Repr

inductive AuthError where
  | tokenInvalid (text : String)
  | tokenExpired
  | tokenBlacklisted
deriving DecidableEq, Repr

-- The signing crate and the hash: how claims are written under a secret, and what
-- a token reads as when its signature is that of a secret.
structure Crypto (Token : Type) where
  encode : String → TokenPayload → Token
  claims : String → Token → Except String TokenPayload
  tokenHash : Token → String

-- `Validation::default`, with the issuer and audience set.
structure Validation where
  validateExp : Bool := true
  leeway : Nat := 60

inductive DecodeError where
  | expiredSignature
  | other (text : String)

def decode {Token : Type} (crypto : Crypto Token) (validation : Validation) (now : Nat) (secret : String) (token : Token) :
    Except DecodeError TokenPayload :=
  match crypto.claims secret token with
  | .error text => .error (.other text)
  | .ok claims =>
    if validation.validateExp ∧ claims.exp + validation.leeway < now then .error .expiredSignature
    else if claims.iss ≠ jwtIssuer then .error (.other "InvalidIssuer")
    else if claims.aud ≠ jwtAudience then .error (.other "InvalidAudience")
    else .ok claims

-- The service with the clock it reads, in seconds. `locked` while a rotation
-- holds the write lock of the secret.
structure JwtService where
  secret : String
  locked : Bool
  blacklist : KeyedMap String Nat
  now : Nat

def JwtService.new (secret : String) (now : Nat) : JwtService := ⟨secret,false,∅,now⟩

inductive Request (Token : Type) where
  | sign (userId username : String)
  | verify (token : Token)
  | blacklistToken (token : Token)
  | rotateSecret
  | cleanupBlacklist

inductive Outcome (Token : Type) where
  | signed (token : Token)
  | verified (claims : TokenPayload)
  | refused (error : AuthError)
  | blacklisted
  | rotated (newSecret : String)
  | cleaned

-- Where a call stands: before its next access of the clock, the secret or the
-- blacklist.
inductive Progress (Token : Type) where
  | idle
  | signing (userId username : String)
  | encoding (claims : TokenPayload)
  | checking (token : Token)
  | decoding (token : Token)
  | extracting (token : Token)
  | defaulting (token : Token)
  | inserting (token : Token) (exp : Nat)
  | rotating
  | clearing (newSecret : String)
  | unlocking (newSecret : String)
  | cleaning
  | retaining (now : Nat)
  | returned (outcome : Outcome Token)

-- The secret that a rotation draws comes in with the step that stores it.
inductive Input (Token : Type) where
  | arrive (request : Request Token)
  | access (newSecret : String)
  | tick (seconds : Nat)

section Calls
variable {Token : Type} (crypto : Crypto Token)

def arrive : Request Token → Progress Token
  | .sign userId username => .signing userId username
  | .verify token => .checking token
  | .blacklistToken token => .extracting token
  | .rotateSecret => .rotating
  | .cleanupBlacklist => .cleaning

def verified : Except DecodeError TokenPayload → Outcome Token
  | .ok claims => .verified claims
  | .error .expiredSignature => .refused .tokenExpired
  | .error (.other text) => .refused (.tokenInvalid s!"JWT verification failed: {text}")

def extractExpiry (service : JwtService) (token : Token) : Option Nat :=
  match decode crypto { validateExp := false } service.now service.secret token with
  | .ok claims => some claims.exp
  | .error _ => none

def retain (now : Nat) (blacklist : KeyedMap String Nat) : KeyedMap String Nat :=
  ⟨blacklist.entries.filter fun entry => now < entry.2,blacklist.nodupKeys.sublist List.filter_sublist⟩

-- One access. Whoever needs the secret waits while a rotation holds its lock.
def serve (service : JwtService) (newSecret : String) : Progress Token → Option (JwtService × Progress Token)
  | .signing userId username => some (service,
      .encoding ⟨userId,username,service.now,service.now + tokenExpiry,jwtIssuer,jwtAudience⟩)
  | .encoding claims =>
    if service.locked then none else some (service,.returned (.signed (crypto.encode service.secret claims)))
  | .checking token =>
    if (service.blacklist.lookup (crypto.tokenHash token)).isSome then some (service,.returned (.refused .tokenBlacklisted))
    else some (service,.decoding token)
  | .decoding token =>
    if service.locked then none
    else some (service,.returned (verified (decode crypto {} service.now service.secret token)))
  | .extracting token =>
    if service.locked then none
    else match extractExpiry crypto service token with
      | some exp => some (service,.inserting token exp)
      | none => some (service,.defaulting token)
  | .defaulting token => some (service,.inserting token (service.now + tokenExpiry))
  | .inserting token exp => some ({ service with
      blacklist := service.blacklist.insert (crypto.tokenHash token) exp },.returned .blacklisted)
  | .rotating =>
    if service.locked then none else some ({ service with secret := newSecret, locked := true },.clearing newSecret)
  | .clearing newSecret => some ({ service with blacklist := ∅ },.unlocking newSecret)
  | .unlocking newSecret => some ({ service with locked := false },.returned (.rotated newSecret))
  | .cleaning => some (service,.retaining service.now)
  | .retaining now => some ({ service with blacklist := retain now service.blacklist },.returned .cleaned)
  | .idle | .returned _ => none

def advance (service : JwtService) (progress : Progress Token) : Input Token → Option (JwtService × Progress Token)
  | .arrive request =>
    match progress with
    | .idle => some (service,arrive request)
    | _ => none
  | .access newSecret => serve crypto service newSecret progress
  | .tick seconds => some ({ service with now := service.now + seconds },progress)

end Calls

end AlineaCopilot.JwtService
