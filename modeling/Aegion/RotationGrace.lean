/-
Which secret is primary and which secrets are accepted over a run of the rotator.
The newest secret stays primary as long as no completion of an older rotation comes
after it.  A secret that has been replaced is accepted for the grace period where
the rotator knew it as its previous secret and no third one was waiting.
-/
import Aegion.TokenRotator

namespace Aegion.AuthToken

open Go
open Crypto (Hmac ParsedToken)
open OAuth (Time)

section Steps

variable {rotator : Rotator}

theorem setSecrets_secret (generator : Generator) (secret : Secret) (previous : List Bytes) :
    generator.setSecrets secret.val previous =
      .ok { generator with primary := secret, previous := previous } := by
  rw [Generator.setSecrets, dif_neg secret.property]

theorem completeRotation_eq (rotator : Rotator) (secret : Secret) :
    rotator.completeRotation secret =
      { rotator with
        generator := { rotator.generator with primary := secret, previous := [] }
        rotationTimer := none } := by
  rw [Rotator.completeRotation, setSecrets_secret]

/-- A rotation to an empty secret only stops the timer. -/
theorem rotateTo_nil (rotator : Rotator) : (rotator.rotateTo []).2 = rotator.stop := rfl

theorem rotateTo_secret (rotator : Rotator) (secret : Secret) :
    (rotator.rotateTo secret.val).2 =
      { rotator.stop with
        generator :=
          { rotator.generator with
            primary := secret
            previous := [(rotator.previousSecret.map Subtype.val).getD []] }
        previousSecret := some secret
        rotationTimer := some rotator.created
        armed := ⟨rotator.created, rotator.now + rotator.gracePeriod, secret⟩ ::
          rotator.stop.armed
        created := rotator.created + 1 } := by
  simp only [Rotator.rotateTo, setSecrets_secret, Rotator.stop]

def Action.newSecret : Action → Option Bytes
  | .rotate newSecret => some newSecret
  | .rotateWithCallback newSecret => some newSecret
  | _ => none

/-- The secret that a completion is about to install. -/
def Rotator.completes (rotator : Rotator) : Action → Option Secret
  | .finishFired id =>
      (rotator.fired.find? fun timer => timer.id = id).map Timer.secret
  | .finishForced index => rotator.forced[index]?
  | _ => none

theorem perform_rotation {action : Action} {newSecret : Bytes}
    (hnew : action.newSecret = some newSecret) :
    rotator.perform action = (rotator.rotateTo newSecret).2 := by
  cases action <;> cases hnew <;> rfl

/-- A completion installs its secret alone. -/
theorem generator_of_completes {action : Action} {secret : Secret}
    (hsecret : rotator.completes action = some secret) :
    (rotator.perform action).generator =
      { rotator.generator with primary := secret, previous := [] } := by
  cases action with
  | finishFired id =>
      obtain ⟨timer, htimer, rfl⟩ := Option.map_eq_some_iff.mp hsecret
      simp only [Rotator.perform, Rotator.finishFired, htimer, completeRotation_eq]
  | finishForced index =>
      rw [Rotator.completes] at hsecret
      simp only [Rotator.perform, Rotator.finishForced, hsecret, completeRotation_eq]
  | _ => cases hsecret

/-- Everything else leaves the generator alone. -/
theorem generator_of_quiet {action : Action} (hnew : action.newSecret = none)
    (hcompletes : rotator.completes action = none) :
    (rotator.perform action).generator = rotator.generator := by
  cases action with
  | rotate _ | rotateWithCallback _ => cases hnew
  | fire id =>
      simp only [Rotator.perform, Rotator.fire]
      split
      · rfl
      · rfl
  | finishFired id =>
      rw [Rotator.completes, Option.map_eq_none_iff] at hcompletes
      simp only [Rotator.perform, Rotator.finishFired, hcompletes]
  | forceComplete =>
      simp only [Rotator.perform, Rotator.forceComplete]
      split
      · rfl
      · rfl
  | finishForced index =>
      rw [Rotator.completes] at hcompletes
      simp only [Rotator.perform, Rotator.finishForced, hcompletes]
  | stop => rfl

end Steps

section Newest

/-- The secret of the most recent rotation that succeeded, or the one that the
generator started with. -/
def latest (start : Rotator) : List Step → Bytes
  | [] => start.generator.primary.val
  | step :: past =>
      match step.action.newSecret with
      | some (byte :: rest) => byte :: rest
      | _ => latest start past

variable {start : Rotator} {step : Step} {past steps : List Step}

theorem after_cons : start.after (step :: past) =
    ((start.after past).wait step.delay).perform step.action := rfl

theorem completes_wait (rotator : Rotator) (delay : Nat) (action : Action) :
    (rotator.wait delay).completes action = rotator.completes action := by
  cases action <;> rfl

theorem primary_cons (hprimary : (start.after past).generator.primary.val =
      latest start past)
    (hcompletes : ∀ secret, (start.after past).completes step.action = some secret →
      secret.val = latest start past) :
    (start.after (step :: past)).generator.primary.val = latest start (step :: past) := by
  rw [after_cons]
  cases hnew : step.action.newSecret with
  | some newSecret =>
      rw [perform_rotation hnew]
      cases newSecret with
      | nil =>
          rw [rotateTo_nil]
          simp only [latest, hnew]
          exact hprimary
      | cons byte rest =>
          have hrotated := rotateTo_secret ((start.after past).wait step.delay)
            ⟨byte :: rest, List.cons_ne_nil byte rest⟩
          rw [hrotated]
          simp only [latest, hnew]
  | none =>
      have hlatest : latest start (step :: past) = latest start past := by
        simp only [latest, hnew]
      rw [hlatest]
      cases hdone : (start.after past).completes step.action with
      | none =>
          rw [generator_of_quiet hnew ((completes_wait _ _ _).trans hdone)]
          exact hprimary
      | some secret =>
          rw [generator_of_completes ((completes_wait _ _ _).trans hdone)]
          exact hcompletes secret hdone

/-- The newest secret is primary after every step of exactly those runs in which
every completion installs the secret of the most recent rotation. -/
theorem newest_primary_iff (start : Rotator) (steps : List Step) :
    (∀ past, past <:+ steps → (start.after past).generator.primary.val = latest start past) ↔
    ∀ step past, step :: past <:+ steps → ∀ secret,
      (start.after past).completes step.action = some secret → secret.val = latest start past := by
  constructor
  · intro hprimary step past hstep secret hsecret
    have hafter := hprimary (step :: past) hstep
    have hnew : step.action.newSecret = none := by
      cases haction : step.action <;> rw [haction] at hsecret <;> first | rfl | cases hsecret
    rw [after_cons, generator_of_completes ((completes_wait _ _ _).trans hsecret)] at hafter
    simpa only [latest, hnew] using hafter
  · intro hcompletes past hpast
    induction past with
    | nil => rfl
    | cons step past ih =>
        exact primary_cons (ih ((List.suffix_cons _ _).trans hpast)) (hcompletes step past hpast)

def sampleGenerator : Generator := ⟨⟨[1], by decide⟩, [], defaultTTL⟩

def sampleRotator : Rotator := newRotator sampleGenerator 100 0

/-- The timer of the first rotation has fired when the second one takes place, and
gets the lock after it; or a `ForceComplete` has read the secret before the second
rotation and finishes after it. -/
theorem stale_completion_replaces_newest :
    (sampleRotator.after [⟨0, .finishFired 0⟩, ⟨0, .rotate [3]⟩, ⟨100, .fire 0⟩,
        ⟨0, .rotate [2]⟩]).generator.secrets = [[2]] ∧
      (sampleRotator.after [⟨0, .finishForced 0⟩, ⟨0, .rotate [3]⟩,
        ⟨0, .forceComplete⟩, ⟨0, .rotate [2]⟩]).generator.secrets = [[2]] ∧
      latest sampleRotator [⟨0, .finishFired 0⟩, ⟨0, .rotate [3]⟩, ⟨100, .fire 0⟩,
        ⟨0, .rotate [2]⟩] = [3] ∧
      latest sampleRotator [⟨0, .finishForced 0⟩, ⟨0, .rotate [3]⟩,
        ⟨0, .forceComplete⟩, ⟨0, .rotate [2]⟩] = [3] := by
  decide

end Newest

section Grace

/-- The secret was primary until less than the grace period before `now`. -/
def InGrace (start : Rotator) (now : Time) (secret : Secret) : List Step → Prop
  | [] => False
  | step :: past =>
      (secret = (start.after past).generator.primary ∧
        now < (start.after (step :: past)).now + start.gracePeriod) ∨
      InGrace start now secret past

/-- What keeps a step from cutting a grace period short.  A rotation replaces the
secret that the rotator has as its previous one, with no third secret in its grace
period; and a timer that gets the lock is the one of the last rotation. -/
def Careful (start : Rotator) (step : Step) (past : List Step) : Prop :=
  (∀ newSecret, step.action.newSecret = some newSecret → newSecret ≠ [] →
    ((start.after past).previousSecret = some (start.after past).generator.primary ∨
      (start.after past).generator.primary.val = newSecret) ∧
    ∀ secret, InGrace start ((start.after past).now + step.delay) secret past →
      secret = (start.after past).generator.primary ∨ secret.val = newSecret) ∧
  ∀ id, step.action = .finishFired id →
    ∀ timer ∈ (start.after past).fired, timer.id = id →
      timer.id + 1 = (start.after past).created

/-- The state of a rotator in a run that cuts no grace period short, given which
secrets are in theirs. -/
structure Sound (grace : Time) (inGrace : Time → Secret → Prop) (rotator : Rotator) :
    Prop where
  period : rotator.gracePeriod = grace
  unforced : rotator.forced = []
  recent : ∀ now secret, inGrace now secret → now < rotator.now + grace
  numbered : ∀ timer, timer ∈ rotator.armed ∨ timer ∈ rotator.fired →
    timer.id < rotator.created
  overdue : ∀ timer ∈ rotator.fired, timer.due ≤ rotator.now
  newest : ∀ timer, timer ∈ rotator.armed ∨ timer ∈ rotator.fired →
    timer.id + 1 = rotator.created → timer.secret = rotator.generator.primary ∧
      ∀ now secret, timer.due ≤ now → inGrace now secret → secret = timer.secret
  kept : ∀ now secret, rotator.now ≤ now → inGrace now secret →
    secret.val ∈ rotator.generator.secrets

section Sound

variable {grace : Time} {inGrace : Time → Secret → Prop} {rotator next : Rotator}

/-- What is in its grace period after a step: also the secret that was primary. -/
def Extended (grace : Time) (inGrace : Time → Secret → Prop)
    (rotator next : Rotator) (now : Time) (secret : Secret) : Prop :=
  (secret = rotator.generator.primary ∧ now < next.now + grace) ∨ inGrace now secret

/-- A step that installs no secret but the primary one, and creates no timer. -/
theorem Sound.quiet (hsound : Sound grace inGrace rotator)
    (hperiod : next.gracePeriod = rotator.gracePeriod)
    (hforced : next.forced = []) (hnow : rotator.now ≤ next.now)
    (hprimary : next.generator.primary = rotator.generator.primary)
    (hcreated : next.created = rotator.created)
    (htimers : ∀ timer, timer ∈ next.armed ∨ timer ∈ next.fired →
      timer ∈ rotator.armed ∨ timer ∈ rotator.fired)
    (hoverdue : ∀ timer ∈ next.fired, timer.due ≤ next.now)
    (hkept : ∀ now secret, next.now ≤ now → inGrace now secret →
      secret.val ∈ next.generator.secrets) :
    Sound grace (Extended grace inGrace rotator next) next where
  period := hperiod.trans hsound.period
  unforced := hforced
  recent := by
    rintro now secret (⟨-, hlt⟩ | hold)
    · exact hlt
    · exact Int.lt_of_lt_of_le (hsound.recent now secret hold) (Int.add_le_add_right hnow grace)
  numbered timer htimer := by
    rw [hcreated]
    exact hsound.numbered timer (htimers timer htimer)
  overdue := hoverdue
  newest timer htimer hnewest := by
    rw [hcreated] at hnewest
    obtain ⟨hsecret, hdue⟩ := hsound.newest timer (htimers timer htimer) hnewest
    refine ⟨hsecret.trans hprimary.symm, ?_⟩
    rintro now secret hlater (⟨rfl, -⟩ | hold)
    · exact hsecret.symm
    · exact hdue now secret hlater hold
  kept := by
    rintro now secret hlater (⟨rfl, -⟩ | hold)
    · rw [← hprimary]
      exact List.mem_cons_self
    · exact hkept now secret hlater hold

theorem mem_stop_armed {timer : Timer} (htimer : timer ∈ rotator.stop.armed) :
    timer ∈ rotator.armed :=
  (List.mem_filter.mp htimer).1

/-- Time passes, or `Stop` is called. -/
theorem Sound.stop (hsound : Sound grace inGrace rotator) (delay : Nat) :
    Sound grace (Extended grace inGrace rotator (rotator.wait delay).stop)
      (rotator.wait delay).stop := by
  have hnow : rotator.now ≤ (rotator.wait delay).stop.now :=
    Int.le_add_of_nonneg_right (Int.natCast_nonneg delay)
  refine hsound.quiet rfl hsound.unforced hnow rfl rfl ?_ ?_ ?_
  · rintro timer (harmed | hfired)
    · exact Or.inl (mem_stop_armed harmed)
    · exact Or.inr hfired
  · exact fun timer hfired => (hsound.overdue timer hfired).trans hnow
  · exact fun now secret hlater hold => hsound.kept now secret (hnow.trans hlater) hold

theorem Sound.fire (hsound : Sound grace inGrace rotator) (delay id : Nat) :
    Sound grace (Extended grace inGrace rotator ((rotator.wait delay).fire id))
      ((rotator.wait delay).fire id) := by
  have hnow : rotator.now ≤ (rotator.wait delay).now :=
    Int.le_add_of_nonneg_right (Int.natCast_nonneg delay)
  have hkept : ∀ now secret, (rotator.wait delay).now ≤ now → inGrace now secret →
      secret.val ∈ rotator.generator.secrets :=
    fun now secret hlater hold => hsound.kept now secret (hnow.trans hlater) hold
  unfold Rotator.fire
  split
  · exact hsound.quiet rfl hsound.unforced hnow rfl rfl (fun _ htimer => htimer)
      (fun timer hfired => (hsound.overdue timer hfired).trans hnow) hkept
  · rename_i timer hfound
    have hmem := List.mem_of_find?_eq_some hfound
    have hdue : timer.due ≤ (rotator.wait delay).now := by
      have hboth := List.find?_some hfound
      simp only [Bool.and_eq_true, decide_eq_true_eq] at hboth
      exact hboth.2
    refine hsound.quiet rfl hsound.unforced hnow rfl rfl ?_ ?_ hkept
    · rintro other (harmed | hfired)
      · exact Or.inl (List.mem_filter.mp harmed).1
      · rcases List.mem_cons.mp hfired with rfl | hold
        · exact Or.inl hmem
        · exact Or.inr hold
    · intro other hfired
      rcases List.mem_cons.mp hfired with rfl | hold
      · exact hdue
      · exact (hsound.overdue other hold).trans hnow

/-- The timer of the last rotation gets the lock: nothing is in its grace period but
the primary secret. -/
theorem Sound.finishFired (hsound : Sound grace inGrace rotator) (delay id : Nat)
    (hlast : ∀ timer ∈ rotator.fired, timer.id = id → timer.id + 1 = rotator.created) :
    Sound grace (Extended grace inGrace rotator ((rotator.wait delay).finishFired id))
      ((rotator.wait delay).finishFired id) := by
  have hnow : rotator.now ≤ (rotator.wait delay).now :=
    Int.le_add_of_nonneg_right (Int.natCast_nonneg delay)
  unfold Rotator.finishFired
  split
  · exact hsound.quiet rfl hsound.unforced hnow rfl rfl (fun _ htimer => htimer)
      (fun timer hfired => (hsound.overdue timer hfired).trans hnow)
      (fun now secret hlater hold => hsound.kept now secret (hnow.trans hlater) hold)
  · rename_i timer hfound
    have hmem : timer ∈ rotator.fired := List.mem_of_find?_eq_some hfound
    have hid : timer.id = id := by simpa using List.find?_some hfound
    obtain ⟨hsecret, hdue⟩ := hsound.newest timer (Or.inr hmem) (hlast timer hmem hid)
    rw [completeRotation_eq]
    refine hsound.quiet rfl hsound.unforced hnow hsecret rfl ?_ ?_ ?_
    · rintro other (harmed | hfired)
      · exact Or.inl harmed
      · exact Or.inr (List.mem_filter.mp hfired).1
    · exact fun other hfired =>
        (hsound.overdue other (List.mem_filter.mp hfired).1).trans hnow
    · intro now secret hlater hold
      have hpast := ((hsound.overdue timer hmem).trans hnow).trans hlater
      rw [hdue now secret hpast hold]
      exact List.mem_cons_self

/-- A rotation that succeeds keeps the secret it replaces. -/
theorem Sound.rotate (hsound : Sound grace inGrace rotator)
    (hmono : ∀ now earlier secret, earlier ≤ now → inGrace now secret →
      inGrace earlier secret) (delay : Nat) (newSecret : Secret)
    (hknown : rotator.previousSecret = some rotator.generator.primary ∨
      rotator.generator.primary.val = newSecret.val)
    (hno : ∀ secret, inGrace (rotator.now + delay) secret →
      secret = rotator.generator.primary ∨ secret.val = newSecret.val) :
    Sound grace (Extended grace inGrace rotator ((rotator.wait delay).rotateTo newSecret.val).2)
      ((rotator.wait delay).rotateTo newSecret.val).2 := by
  rw [rotateTo_secret]
  have hnow : rotator.now ≤ rotator.now + delay :=
    Int.le_add_of_nonneg_right (Int.natCast_nonneg delay)
  have hprimary : rotator.generator.primary.val ∈
      [newSecret.val, (rotator.previousSecret.map Subtype.val).getD []] := by
    rcases hknown with hprevious | hsame
    · rw [hprevious]
      exact List.mem_cons_of_mem _ List.mem_cons_self
    · rw [hsame]
      exact List.mem_cons_self
  refine ⟨hsound.period, hsound.unforced, ?_, ?_, ?_, ?_, ?_⟩
  · rintro now secret (⟨-, hlt⟩ | hold)
    · exact hlt
    · exact Int.lt_of_lt_of_le (hsound.recent now secret hold) (Int.add_le_add_right hnow grace)
  · rintro timer (harmed | hfired)
    · rcases List.mem_cons.mp harmed with rfl | hold
      · exact Nat.lt_succ_self _
      · exact (hsound.numbered timer (Or.inl (mem_stop_armed hold))).trans (Nat.lt_succ_self _)
    · exact (hsound.numbered timer (Or.inr hfired)).trans (Nat.lt_succ_self _)
  · exact fun timer hfired => (hsound.overdue timer hfired).trans hnow
  · intro timer htimer hnewest
    -- Only the timer just created carries the last number.
    have hcreated : timer = ⟨rotator.created,
        rotator.now + delay + rotator.gracePeriod, newSecret⟩ := by
      have hnumber : timer.id = rotator.created := Nat.succ.inj hnewest
      rcases htimer with harmed | hfired
      · rcases List.mem_cons.mp harmed with heq | hold
        · exact heq
        · have hlt := hsound.numbered timer (Or.inl (mem_stop_armed hold))
          omega
      · have hlt := hsound.numbered timer (Or.inr hfired)
        omega
    subst hcreated
    refine ⟨rfl, ?_⟩
    rw [hsound.period]
    rintro now secret hdue (⟨-, hlt⟩ | hold)
    · exact absurd hlt (Int.not_lt.mpr hdue)
    · have hrecent := Int.lt_of_lt_of_le (hsound.recent now secret hold)
        (Int.add_le_add_right hnow grace)
      exact absurd hrecent (Int.not_lt.mpr hdue)
  · rintro now secret hlater (⟨rfl, -⟩ | hold)
    · exact hprimary
    · rcases hno secret (hmono now _ secret hlater hold) with rfl | hnew
      · exact hprimary
      · change secret.val ∈ [newSecret.val, _]
        rw [hnew]
        exact List.mem_cons_self

end Sound

variable {start : Rotator} {past steps : List Step}

theorem InGrace.mono {now earlier : Time} {secret : Secret} (hle : earlier ≤ now)
    (hgrace : InGrace start now secret past) : InGrace start earlier secret past := by
  induction past with
  | nil => exact hgrace
  | cons step past ih =>
      rcases hgrace with ⟨hprimary, hlt⟩ | hold
      · exact Or.inl ⟨hprimary, Int.lt_of_le_of_lt hle hlt⟩
      · exact Or.inr (ih hold)

/-- One step of a run without `ForceComplete`. -/
theorem sound_cons {step : Step} (hcareful : Careful start step past)
    (hunforced : step.action ≠ .forceComplete)
    (hsound : Sound start.gracePeriod (fun now secret => InGrace start now secret past)
      (start.after past)) :
    Sound start.gracePeriod (fun now secret => InGrace start now secret (step :: past))
      (start.after (step :: past)) := by
  obtain ⟨delay, action⟩ := step
  have hrotation : ∀ newSecret, action.newSecret = some newSecret →
      Sound start.gracePeriod
        (Extended start.gracePeriod (fun now secret => InGrace start now secret past)
          (start.after past) (((start.after past).wait delay).rotateTo newSecret).2)
        (((start.after past).wait delay).rotateTo newSecret).2 := by
    intro newSecret hnew
    by_cases hempty : newSecret = []
    · subst hempty
      exact hsound.stop delay
    · obtain ⟨hknown, hno⟩ := hcareful.1 newSecret hnew hempty
      exact hsound.rotate (fun _ _ _ hle => InGrace.mono hle) delay ⟨newSecret, hempty⟩ hknown hno
  cases action with
  | rotate newSecret => exact hrotation newSecret rfl
  | rotateWithCallback newSecret => exact hrotation newSecret rfl
  | fire id => exact hsound.fire delay id
  | finishFired id => exact hsound.finishFired delay id (hcareful.2 id rfl)
  | forceComplete => exact absurd rfl hunforced
  | finishForced index =>
      have hnone : ((start.after past).wait delay).finishForced index =
          (start.after past).wait delay := by
        have hforced : ((start.after past).wait delay).forced = [] := hsound.unforced
        simp only [Rotator.finishForced, hforced, List.getElem?_nil]
      have hnow : (start.after past).now ≤ ((start.after past).wait delay).now :=
        Int.le_add_of_nonneg_right (Int.natCast_nonneg delay)
      have hquiet : Sound start.gracePeriod (Extended start.gracePeriod
          (fun now secret => InGrace start now secret past) (start.after past)
          ((start.after past).wait delay)) ((start.after past).wait delay) :=
        hsound.quiet rfl hsound.unforced hnow rfl rfl (fun _ htimer => htimer)
          (fun timer hfired => (hsound.overdue timer hfired).trans hnow)
          (fun now secret hlater => hsound.kept now secret (hnow.trans hlater))
      rw [← hnone] at hquiet
      exact hquiet
  | stop => exact hsound.stop delay

/-- A run of such steps, from the start. -/
theorem sound_of_careful {generator : Generator} {gracePeriod now : Time}
    (hcareful : ∀ step past, step :: past <:+ steps →
      Careful (newRotator generator gracePeriod now) step past)
    (hunforced : ∀ step ∈ steps, step.action ≠ .forceComplete) :
    Sound (newRotator generator gracePeriod now).gracePeriod (fun time secret =>
        InGrace (newRotator generator gracePeriod now) time secret steps)
      ((newRotator generator gracePeriod now).after steps) := by
  induction steps with
  | nil =>
      refine ⟨rfl, rfl, ?_, ?_, ?_, ?_, ?_⟩
      · exact fun _ _ hgrace => hgrace.elim
      · rintro timer (harmed | hfired)
        · cases harmed
        · cases hfired
      · exact fun timer hfired => by cases hfired
      · rintro timer (harmed | hfired)
        · cases harmed
        · cases hfired
      · exact fun _ _ _ hgrace => hgrace.elim
  | cons step past ih =>
      refine sound_cons (hcareful step past List.suffix_rfl)
        (hunforced step List.mem_cons_self) (ih ?_ ?_)
      · exact fun earlier before hsuffix =>
          hcareful earlier before (hsuffix.trans (List.suffix_cons _ _))
      · exact fun earlier hmem => hunforced earlier (List.mem_cons_of_mem step hmem)

end Grace

section Validation

open Crypto

variable {hmac : Hmac} {generator : Generator} {moduleID token : Bytes}
  {timestamp : Int64}

theorem generate_eq_ok (hgenerate : generator.generate hmac moduleID timestamp = .ok token) :
    [dot].intercalate [internalTokenVer, encodeRawURL moduleID, formatInt timestamp,
      encodeHex (hmac.mac generator.primary.val
        (internalTokenMessage (encodeRawURL moduleID) timestamp))] = token := by
  unfold Generator.generate cGenerateInternalToken cHMACSHA256Hex at hgenerate
  dsimp only at hgenerate
  rw [if_neg generator.primary.property] at hgenerate
  split_ifs at hgenerate
  · cases hgenerate
  · exact Except.ok.inj hgenerate

/-- Within its time limit a token is accepted, or its signature is rejected, under any
secret; it is accepted under the one that signed it. -/
theorem verify_generated (hgenerate : generator.generate hmac moduleID timestamp = .ok token) :
    ∃ signature,
      (∀ limit now, timestamp ≤ now → Within limit timestamp now →
        cVerifyInternalToken hmac generator.primary.val token limit now =
          .ok ⟨moduleID, timestamp, signature⟩) ∧
      ∀ secret limit now, timestamp ≤ now → Within limit timestamp now →
        cVerifyInternalToken hmac secret token limit now = .ok ⟨moduleID, timestamp, signature⟩ ∨
          cVerifyInternalToken hmac secret token limit now = .error .invalidSignature := by
  have htoken := generate_eq_ok hgenerate
  subst htoken
  have hsplit := splitOn_dotted moduleID timestamp
    (hmac.mac generator.primary.val (internalTokenMessage (encodeRawURL moduleID) timestamp))
    (by decide : dot ∉ internalTokenVer)
  refine ⟨encodeHex (hmac.mac generator.primary.val
    (internalTokenMessage (encodeRawURL moduleID) timestamp)), ?_, ?_⟩
  · intro limit now hpast hwithin
    exact cVerifyInternalToken_eq_ok_iff.mpr ⟨_, _, hsplit, parseInt_formatInt timestamp,
      hpast, fresh_of_within hwithin, verifyHMACHex_mac generator.primary.property,
      decodeRawURL_encodeRawURL moduleID⟩
  · intro secret limit now hpast hwithin
    have hfresh := (fresh_iff.mp (fresh_of_within hwithin)).2
    unfold cVerifyInternalToken
    rw [hsplit]
    simp only [ne_eq, not_true_eq_false, if_false, parseInt_formatInt, decodeRawURL_encodeRawURL]
    rw [if_neg (Int64.not_lt.mpr hpast), if_neg hfresh]
    split_ifs
    · exact Or.inr rfl
    · exact Or.inl rfl

/-- The loop of `Validate` gets to the secret that signed the token. -/
theorem validateWith_generated {ttl : Time}
    (hgenerate : generator.generate hmac moduleID timestamp = .ok token)
    {attempts : List (Bytes × Int64)} (hclock : ∀ attempt ∈ attempts, timestamp ≤ attempt.2 ∧
      Within (ttlMillis ttl) timestamp attempt.2)
    (hmem : generator.primary.val ∈ attempts.map Prod.fst) :
    ∃ parsed, validateWith hmac ttl token attempts = .ok parsed ∧
      parsed.moduleID = moduleID ∧ parsed.timestampUnix = timestamp := by
  obtain ⟨signature, hown, hany⟩ := verify_generated hgenerate
  induction attempts with
  | nil => cases hmem
  | cons first rest ih =>
      obtain ⟨secret, now⟩ := first
      obtain ⟨hpast, hwithin⟩ := hclock (secret, now) List.mem_cons_self
      rcases hany secret (ttlMillis ttl) now hpast hwithin with hok | hwrong
      · refine ⟨⟨moduleID, timestamp, signature⟩, ?_, rfl, rfl⟩
        simp only [validateWith, hok]
      · have hother : generator.primary.val ∈ rest.map Prod.fst := by
          rcases List.mem_cons.mp hmem with heq | hrest
          · rw [← show generator.primary.val = secret from heq, hown _ now hpast hwithin] at hwrong
            cases hwrong
          · exact hrest
        obtain ⟨parsed, hparsed, hfields⟩ := ih
          (fun next hnext => hclock next (List.mem_cons_of_mem _ hnext)) hother
        refine ⟨parsed, ?_, hfields⟩
        simp only [validateWith, hwrong]
        exact hparsed

theorem ttl_after (start : Rotator) (steps : List Step) :
    (start.after steps).generator.ttl = start.generator.ttl := by
  induction steps with
  | nil => rfl
  | cons step past ih =>
      rw [after_cons]
      cases hnew : step.action.newSecret with
      | some newSecret =>
          rw [perform_rotation hnew]
          by_cases hempty : newSecret = []
          · subst hempty
            exact ih
          · rw [rotateTo_secret _ ⟨newSecret, hempty⟩]
            exact ih
      | none =>
          cases hdone : ((start.after past).wait step.delay).completes step.action with
          | none =>
              rw [generator_of_quiet hnew hdone]
              exact ih
          | some secret =>
              rw [generator_of_completes hdone]
              exact ih

/-- If every rotation replaces the secret that the rotator knows as its previous one,
with no third secret in its grace period, and no timer of an earlier rotation comes
after a later one, then a token validates until its time limit ends for as long as its
secret is primary or in its grace period. -/
theorem tokens_survive_rotation (hmac : Hmac) (cfg : GeneratorConfig)
    (gracePeriod started : Time) (start : Rotator)
    (hstart : (newGenerator cfg).map (newRotator · gracePeriod started) = .ok start)
    (steps : List Step) (hcareful : ∀ step past, step :: past <:+ steps → Careful start step past)
    (hunforced : ∀ step ∈ steps, step.action ≠ .forceComplete) :
    ∀ before, before <:+ steps → ∀ moduleID timestamp token,
      (start.after before).generator.generate hmac moduleID timestamp = .ok token →
      ∀ now, (start.after steps).now ≤ now →
      (start.after steps).generator.primary = (start.after before).generator.primary ∨
        InGrace start now (start.after before).generator.primary steps →
      ∀ clock : Nat → Int64, (∀ turn, timestamp ≤ clock turn ∧
        Within (ttlMillis start.generator.ttl) timestamp (clock turn)) →
      ∃ parsed, (start.after steps).generator.validate hmac token clock = .ok parsed ∧
        parsed.moduleID = moduleID ∧ parsed.timestampUnix = timestamp := by
  intro before _ moduleID timestamp token hgenerate now hnow hcovered clock hclock
  have hsound : Sound start.gracePeriod
      (fun time secret => InGrace start time secret steps) (start.after steps) := by
    cases hgenerator : newGenerator cfg with
    | error e =>
        rw [hgenerator] at hstart
        cases hstart
    | ok generator =>
        rw [hgenerator] at hstart
        cases hstart
        exact sound_of_careful hcareful hunforced
  have hmem : (start.after before).generator.primary.val ∈
      (start.after steps).generator.secrets := by
    rcases hcovered with hprimary | hgrace
    · rw [← hprimary]
      exact List.mem_cons_self
    · exact hsound.kept now _ hnow hgrace
  unfold Generator.validate
  rw [ttl_after]
  refine validateWith_generated hgenerate ?_ ?_
  · intro attempt hattempt
    obtain ⟨⟨secret, turn⟩, -, rfl⟩ := List.mem_map.mp hattempt
    exact hclock turn
  · rw [List.map_map]
    change _ ∈ (start.after steps).generator.secrets.zipIdx.map Prod.fst
    rw [List.zipIdx_map_fst]
    exact hmem

/-- The tag is the key and the message behind one byte. -/
def keyedHmac : Hmac := ⟨fun key message => 0 :: (key ++ message), by simp⟩

def sampleToken : Bytes :=
  ((sampleGenerator.generate keyedHmac (bytesOf "core") 5).toOption).getD []

/-- A rotation to the secret in use makes it known to the rotator; the next one then
keeps it for its grace period. -/
theorem known_secret_survives :
    (newGenerator ⟨[1], 0, []⟩).map (newRotator · 100 0) = .ok sampleRotator ∧
      ∃ parsed, (sampleRotator.after [⟨5, .rotate [2]⟩, ⟨0, .rotate [1]⟩]
        ).generator.validate keyedHmac sampleToken (fun _ => 6) = .ok parsed := by
  have hstart : (newGenerator ⟨[1], 0, []⟩).map (newRotator · 100 0) =
      .ok sampleRotator := rfl
  have hcareful : ∀ step past,
      step :: past <:+ [⟨5, .rotate [2]⟩, ⟨0, .rotate [1]⟩] →
        Careful sampleRotator step past := by
    intro step past hstep
    rcases List.suffix_cons_iff.mp hstep with heq | hfirst
    · cases heq
      refine ⟨?_, fun _ hfired => by cases hfired⟩
      rintro newSecret - -
      refine ⟨Or.inl rfl, ?_⟩
      rintro secret (⟨rfl, -⟩ | hnone)
      · exact Or.inl rfl
      · exact hnone.elim
    · rcases List.suffix_cons_iff.mp hfirst with heq | hnil
      · cases heq
        refine ⟨?_, fun _ hfired => by cases hfired⟩
        rintro newSecret hnew -
        cases hnew
        exact ⟨Or.inr rfl, fun _ hnone => hnone.elim⟩
      · cases List.suffix_nil.mp hnil
  obtain ⟨parsed, hparsed, -⟩ := tokens_survive_rotation keyedHmac ⟨[1], 0, []⟩ 100 0
    sampleRotator hstart _ hcareful (by decide) [] List.nil_suffix (bytesOf "core") 5
    sampleToken (by decide) 10 (by decide) (Or.inr (Or.inl ⟨by decide, by decide⟩))
    (fun _ => 6) (fun _ => ⟨by decide, fun _ => by decide⟩)
  exact ⟨hstart, parsed, hparsed⟩

/-- A token of the first secret does not survive the first rotation, and one of a
known secret does not survive a second rotation, although the secret is in its grace
period. -/
theorem rotation_drops_secret :
    (InGrace sampleRotator 50 sampleGenerator.primary [⟨0, .rotate [2]⟩] ∧
      InGrace sampleRotator 50 sampleGenerator.primary
        [⟨0, .rotate [3]⟩, ⟨0, .rotate [2]⟩, ⟨0, .rotate [1]⟩]) ∧
    sampleGenerator.generate keyedHmac (bytesOf "core") 5 = .ok sampleToken ∧
    (sampleRotator.after [⟨0, .rotate [2]⟩]).generator.validate keyedHmac sampleToken
      (fun _ => 6) = .error .invalidToken ∧
    (sampleRotator.after [⟨0, .rotate [3]⟩, ⟨0, .rotate [2]⟩, ⟨0, .rotate [1]⟩]
      ).generator.validate keyedHmac sampleToken (fun _ => 6) = .error .invalidToken := by
  refine ⟨⟨Or.inl ⟨rfl, by decide⟩, Or.inr (Or.inl ⟨rfl, by decide⟩)⟩, ?_⟩
  decide +kernel

end Validation

section Rejected

/-- The accepted secrets, the remembered previous secret and the pending expiry of an old
secret are as before. -/
def Rotator.Unaffected (before after : Rotator) : Prop :=
  after.generator.secrets = before.generator.secrets ∧
    after.previousSecret = before.previousSecret ∧
    after.rotationTimer = before.rotationTimer ∧ after.armed = before.armed

/-- A rotation that returns an error has only stopped the timer. -/
theorem rotateTo_error {rotator : Rotator} {newSecret : Bytes} {e : Error}
    (herror : (rotator.rotateTo newSecret).1 = .error e) :
    (rotator.rotateTo newSecret).2 = rotator.stop := by
  cases newSecret with
  | nil => rw [rotateTo_nil]
  | cons byte rest => cases herror

theorem unaffected_stop_iff (rotator : Rotator) :
    rotator.Unaffected rotator.stop ↔ rotator.rotationTimer = none := by
  constructor
  · rintro ⟨-, -, htimer, -⟩
    exact htimer.symm
  · intro hnone
    refine ⟨rfl, rfl, hnone.symm, ?_⟩
    simp [Rotator.stop, hnone]

/-- A rejected rotation is without effect exactly if no rotation was pending. -/
theorem rejected_rotation_unaffected_iff (rotator : Rotator) (newSecret : Bytes) :
    (∀ e, (rotator.rotate newSecret).1 = .error e →
      (rotator.Unaffected (rotator.rotate newSecret).2 ↔ rotator.rotationTimer = none)) ∧
    ∀ e, (rotator.rotateWithCallback newSecret).1 = .error e →
      (rotator.Unaffected (rotator.rotateWithCallback newSecret).2 ↔
        rotator.rotationTimer = none) := by
  have hrejected : ∀ e, (rotator.rotateTo newSecret).1 = .error e →
      (rotator.Unaffected (rotator.rotateTo newSecret).2 ↔
        rotator.rotationTimer = none) := by
    intro e herror
    rw [rotateTo_error herror]
    exact unaffected_stop_iff rotator
  exact ⟨hrejected, hrejected⟩

theorem rejected_rotation_before_any :
    (sampleRotator.rotate []).1 = .error .invalidSecret ∧
      sampleRotator.Unaffected (sampleRotator.rotate []).2 :=
  ⟨rfl, ((rejected_rotation_unaffected_iff sampleRotator []).1 .invalidSecret rfl).mpr rfl⟩

/-- What the runtime does by itself. -/
def Action.Timed : Action → Prop
  | .fire _ | .finishFired _ => True
  | _ => False

/-- Without a timer nothing completes a rotation, however much time passes. -/
theorem secrets_of_no_timer (rotator : Rotator) {steps : List Step}
    (harmed : rotator.armed = []) (hfired : rotator.fired = [])
    (htimed : ∀ step ∈ steps, step.action.Timed) :
    (rotator.after steps).generator = rotator.generator ∧
      (rotator.after steps).armed = [] ∧ (rotator.after steps).fired = [] := by
  induction steps with
  | nil => exact ⟨rfl, harmed, hfired⟩
  | cons step past ih =>
      obtain ⟨hgenerator, harmed, hfired⟩ :=
        ih fun earlier hearlier => htimed earlier (List.mem_cons_of_mem _ hearlier)
      have hkind := htimed step List.mem_cons_self
      obtain ⟨delay, action⟩ := step
      rw [after_cons]
      cases action with
      | fire id =>
          simp [Rotator.perform, Rotator.fire, Rotator.wait, hgenerator, harmed, hfired]
      | finishFired id =>
          simp [Rotator.perform, Rotator.finishFired, Rotator.wait, hgenerator, harmed, hfired]
      | _ => exact hkind.elim

/-- Two rotations, the second with its timer pending. -/
def twiceRotated : Rotator := sampleRotator.after [⟨0, .rotate [3]⟩, ⟨0, .rotate [2]⟩]

/-- The rejected rotation stops the timer that was to remove the old secret; it is accepted
for ever. -/
theorem rejected_rotation_keeps_old_secret :
    (twiceRotated.rotate []).1 = .error .invalidSecret ∧
    twiceRotated.rotationTimer = some 1 ∧ (twiceRotated.rotate []).2.rotationTimer = none ∧
    (twiceRotated.after [⟨0, .finishFired 1⟩, ⟨100, .fire 1⟩]).generator.secrets = [[3]] ∧
    ∀ steps : List Step, (∀ step ∈ steps, step.action.Timed) →
      ((twiceRotated.rotate []).2.after steps).generator.secrets = [[3], [2]] := by
  refine ⟨rfl, rfl, rfl, by decide, fun steps htimed => ?_⟩
  obtain ⟨hgenerator, -⟩ := secrets_of_no_timer (twiceRotated.rotate []).2 (by decide)
    (by decide) htimed
  rw [hgenerator]
  rfl

end Rejected

end Aegion.AuthToken
