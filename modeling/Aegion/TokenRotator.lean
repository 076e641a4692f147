/-
Internal tokens between modules, and the rotation of the secrets that sign them.
Every critical section of the rotator is one step.  Timers live in the runtime: one
that has fired waits for the lock, out of the reach of `Stop`, and one that the
rotator has lost sight of goes on running.
-/
import Aegion.SignedValues
import Aegion.OAuthRecords

namespace Aegion

namespace AuthToken

open Go
open Crypto (Hmac ParsedToken cGenerateInternalToken cVerifyInternalToken)
open OAuth (Time minutes)

inductive Error where
  | invalidToken
  | expiredToken
  | invalidSecret
  | moduleIDEmpty
  | crypto (e : Crypto.Error)
deriving Repr, DecidableEq

/-- A secret that can be primary. -/
abbrev Secret := { bytes : Bytes // bytes ≠ [] }

section Generator

structure GeneratorConfig where
  secret : Bytes
  ttl : Time
  previousSecrets : List Bytes
deriving Repr, DecidableEq

structure Generator where
  primary : Secret
  previous : List Bytes
  ttl : Time
deriving Repr, DecidableEq

def Generator.secrets (generator : Generator) : List Bytes :=
  generator.primary.val :: generator.previous

def defaultTTL : Time := minutes 5

def newGenerator (cfg : GeneratorConfig) : Except Error Generator :=
  if hempty : cfg.secret = [] then .error .invalidSecret
  else .ok ⟨⟨cfg.secret, hempty⟩, cfg.previousSecrets,
    if cfg.ttl = 0 then defaultTTL else cfg.ttl⟩

/-- The new list of secrets; `nil` arguments stay in it as empty ones. -/
def Generator.setSecrets (generator : Generator) (primary : Bytes)
    (previous : List Bytes) : Except Error Generator :=
  if hempty : primary = [] then .error .invalidSecret
  else .ok { generator with primary := ⟨primary, hempty⟩, previous := previous }

variable (hmac : Hmac)

def Generator.generate (generator : Generator) (moduleID : Bytes)
    (timestamp : Int64) : Except Error Bytes :=
  if moduleID = [] then .error .moduleIDEmpty
  else (cGenerateInternalToken hmac generator.primary.val moduleID timestamp).mapError
    .crypto

/-- The time limit that `VerifyInternalToken` passes on; zero is none. -/
def ttlMillis (ttl : Time) : UInt64 :=
  if ttl ≤ 0 then 0
  else if ttl / 1000000 = 0 then 1
  else UInt64.ofNat (ttl / 1000000).toNat

/-- The loop of `Validate` over the secrets, each with the time read at its turn. -/
def validateWith (ttl : Time) (token : Bytes) :
    List (Bytes × Int64) → Except Error ParsedToken
  | [] => .error .invalidToken
  | (secret, now) :: rest =>
      match cVerifyInternalToken hmac secret token (ttlMillis ttl) now with
      | .ok parsed => .ok parsed
      | .error .expired => .error .expiredToken
      | .error _ => validateWith ttl token rest

def Generator.validate (generator : Generator) (token : Bytes) (clock : Nat → Int64) :
    Except Error ParsedToken :=
  validateWith hmac generator.ttl token
    (generator.secrets.zipIdx.map fun (secret, turn) => (secret, clock turn))

end Generator

/-- A timer of the runtime that will complete the rotation to a secret. -/
structure Timer where
  id : Nat
  due : Time
  secret : Secret
deriving Repr, DecidableEq

/-- The rotator with its generator, and what runs on its behalf: timers that have
not fired, timers that have fired and wait for the lock, and `ForceComplete` calls
between their two critical sections. -/
structure Rotator where
  generator : Generator
  gracePeriod : Time
  rotationTimer : Option Nat
  previousSecret : Option Secret
  armed : List Timer
  fired : List Timer
  forced : List Secret
  created : Nat
  now : Time
deriving Repr, DecidableEq

def newRotator (generator : Generator) (gracePeriod now : Time) : Rotator where
  generator := generator
  gracePeriod := if gracePeriod = 0 then minutes 10 else gracePeriod
  rotationTimer := none
  previousSecret := none
  armed := []
  fired := []
  forced := []
  created := 0
  now := now

namespace Rotator

variable (rotator : Rotator)

/-- `rotationTimer.Stop()` reaches a timer only as long as it has not fired. -/
def stop : Rotator :=
  { rotator with
    rotationTimer := none
    armed := rotator.armed.filter fun timer => some timer.id ≠ rotator.rotationTimer }

/-- The common body of `Rotate` and `RotateWithCallback`; the callback runs after the
completion and does nothing to the rotator. -/
def rotateTo (newSecret : Bytes) : Except Error Unit × Rotator :=
  let stopped := rotator.stop
  let oldSecret := (stopped.previousSecret.map Subtype.val).getD []
  match stopped.generator.setSecrets newSecret [oldSecret] with
  | .error e => (.error e, stopped)
  | .ok generator =>
      (.ok (),
        { stopped with
          generator := generator
          previousSecret := some generator.primary
          rotationTimer := some stopped.created
          armed := ⟨stopped.created, stopped.now + stopped.gracePeriod,
            generator.primary⟩ :: stopped.armed
          created := stopped.created + 1 })

def rotate (newSecret : Bytes) : Except Error Unit × Rotator :=
  rotator.rotateTo newSecret

def rotateWithCallback (newSecret : Bytes) : Except Error Unit × Rotator :=
  rotator.rotateTo newSecret

/-- Whichever timer `rotationTimer` is, it is forgotten. -/
def completeRotation (currentSecret : Secret) : Rotator :=
  match rotator.generator.setSecrets currentSecret.val [] with
  | .error _ => { rotator with rotationTimer := none }
  | .ok generator => { rotator with generator := generator, rotationTimer := none }

/-- The runtime starts the function of a timer that is due. -/
def fire (id : Nat) : Rotator :=
  match rotator.armed.find? fun timer => timer.id = id && timer.due ≤ rotator.now with
  | none => rotator
  | some timer =>
      { rotator with
        armed := rotator.armed.filter fun other => other.id ≠ id
        fired := timer :: rotator.fired }

/-- The function of a fired timer gets the lock. -/
def finishFired (id : Nat) : Rotator :=
  match rotator.fired.find? fun timer => timer.id = id with
  | none => rotator
  | some timer =>
      { rotator with fired := rotator.fired.filter fun other => other.id ≠ id
        }.completeRotation timer.secret

/-- The first critical section of `ForceComplete`. -/
def forceComplete : Rotator :=
  let stopped := rotator.stop
  match stopped.previousSecret with
  | none => stopped
  | some currentSecret => { stopped with forced := stopped.forced ++ [currentSecret] }

/-- The second critical section of a `ForceComplete`. -/
def finishForced (index : Nat) : Rotator :=
  match rotator.forced[index]? with
  | none => rotator
  | some currentSecret =>
      { rotator with forced := rotator.forced.eraseIdx index
        }.completeRotation currentSecret

end Rotator

inductive Action where
  | rotate (newSecret : Bytes)
  | rotateWithCallback (newSecret : Bytes)
  | fire (id : Nat)
  | finishFired (id : Nat)
  | forceComplete
  | finishForced (index : Nat)
  | stop
deriving Repr, DecidableEq

/-- A critical section, or the firing of a timer, some time after the step before. -/
structure Step where
  delay : Nat
  action : Action
deriving Repr, DecidableEq

namespace Rotator

def perform (rotator : Rotator) : Action → Rotator
  | .rotate newSecret => (rotator.rotate newSecret).2
  | .rotateWithCallback newSecret => (rotator.rotateWithCallback newSecret).2
  | .fire id => rotator.fire id
  | .finishFired id => rotator.finishFired id
  | .forceComplete => rotator.forceComplete
  | .finishForced index => rotator.finishForced index
  | .stop => rotator.stop

def wait (rotator : Rotator) (delay : Nat) : Rotator :=
  { rotator with now := rotator.now + delay }

/-- The rotator after some steps, newest first. -/
def after (start : Rotator) : List Step → Rotator
  | [] => start
  | step :: past => ((start.after past).wait step.delay).perform step.action

end Rotator

end AuthToken

end Aegion
