/-
How often the code of one time step is accepted.  Recording the use of a factor
does not depend on earlier uses, so a code is accepted again whenever it is
presented again within the window; it is accepted once where nobody does that.
-/
import Aegion.MFAConduct

namespace Aegion.MFA

open Go Service History
open OAuth (Time DBError)

section Window

variable {platform : Platform} {cfg : Config}

theorem windows_pos (cfg : Config) : 0 < (new cfg).totpAllowedTimeWindows := by
  simp only [new, orDefault]
  split_ifs
  · decide
  · omega

/-- The steps tried are those at most the allowed number of windows away. -/
theorem mem_allowedCounters {now : Time} {counter : Int}
    (hwindows : 0 ≤ cfg.totpAllowedTimeWindows) :
    counter ∈ allowedCounters cfg now ↔
      ((totpCounter cfg now - counter).natAbs : Int) ≤ cfg.totpAllowedTimeWindows := by
  simp only [allowedCounters, List.mem_map, List.mem_range]
  constructor
  · rintro ⟨i, hi, rfl⟩
    omega
  · intro hnear
    refine ⟨(counter - totpCounter cfg now + cfg.totpAllowedTimeWindows).toNat, ?_, ?_⟩
    · omega
    · omega

/-- A right code is the code of a step that is tried. -/
theorem checkTOTP_eq_true {secret code : String} {now : Time}
    (hright : checkTOTP platform cfg secret code now = some true) :
    ∃ decoded counter, decodeSecret platform secret = some decoded ∧
      counter ∈ allowedCounters cfg now ∧
      generateTOTPCode platform decoded counter cfg.totpDigits.toNat = normalizeTOTPCode code := by
  simp only [checkTOTP] at hright
  split at hright
  · cases hright
  · split at hright
    · cases hright
    · rename_i decoded hdecoded
      split at hright
      · cases hright
      · obtain ⟨counter, hcounter, hcode⟩ :=
          List.any_eq_true.mp (Option.some.inj hright)
        exact ⟨decoded, counter, hdecoded, hcounter, by simpa using hcode⟩

end Window

/-- The thread's `VerifyTOTP` has accepted the code that this secret has in this
time step, at a time from which the step is in the window. -/
def AcceptsStep (platform : Platform) (cfg : Config) (history : Trace)
    (thread : Nat) (identityID secret : String) (step : Int) : Prop :=
  ∃ arg code usedAt decoded,
    ⟨thread, .verifyTOTP arg code, .answered .done⟩ ∈ history ∧
    trimSpace arg = identityID ∧
    TOTPProof platform cfg (own thread history) identityID code secret usedAt ∧
    decodeSecret platform secret = some decoded ∧
    generateTOTPCode platform decoded step cfg.totpDigits.toNat = normalizeTOTPCode code ∧
    ((totpCounter cfg usedAt - step).natAbs : Int) ≤ cfg.totpAllowedTimeWindows

/-- A recorded use: the identity, the code as it is compared, and the time step
of the clock. -/
structure Use where
  identityID : String
  code : String
  counter : Int
deriving Repr, DecidableEq

def useOf (cfg : Config) (entry : Event) : Option Use :=
  match entry with
  | ⟨_, .verifyTOTP _ code,
      .called ⟨.updateTOTPLastUsed identityID usedAt, .ok (_ + 1)⟩⟩ =>
      some ⟨identityID, normalizeTOTPCode code, totpCounter cfg usedAt⟩
  | _ => none

/-- The code was not used for this identity before, or so long ago that no step
is in both windows. -/
def Unrepeated (cfg : Config) (past : Trace) (entry : Event) : Prop :=
  ∀ use ∈ (useOf cfg entry).toList, ∀ earlier ∈ past.filterMap (useOf cfg),
    earlier.identityID = use.identityID → earlier.code = use.code →
      2 * cfg.totpAllowedTimeWindows < ((use.counter - earlier.counter).natAbs : Int)

instance (cfg : Config) (past : Trace) (entry : Event) : Decidable (Unrepeated cfg past entry) := by
  unfold Unrepeated
  infer_instance

section Runs

variable {platform : Platform} {cfg : Config} {db : Database}
  {actions : Schedule}

/-- Every accepted code is the code of some step. -/
theorem exists_acceptsStep {thread : Nat} {arg code : String}
    (hanswered : ⟨thread, .verifyTOTP arg code, .answered .done⟩ ∈
      runFrom platform cfg db actions) :
    ∃ secret step, AcceptsStep platform (new cfg)
      (runFrom platform cfg db actions) thread (trimSpace arg) secret step := by
  obtain ⟨past, hentry⟩ := exists_past_of_mem hanswered
  obtain ⟨secret, usedAt, hproof⟩ := owes_of_run _ past hentry
  obtain ⟨decoded, counter, hdecoded, hcounter, hcode⟩ :=
    checkTOTP_eq_true hproof.right
  have hwiden : own thread past <:+ own thread (runFrom platform cfg db actions) :=
    own_suffix ((List.suffix_cons _ _).trans hentry)
  obtain ⟨⟨factor, hfactor, hsecret⟩, htime, hright, n, hrecorded⟩ := hproof
  refine ⟨secret, counter, arg, code, usedAt, decoded, hanswered, rfl,
    ⟨⟨factor, hwiden.subset hfactor, hsecret⟩, hwiden.subset htime, hright, n,
      hwiden.subset hrecorded⟩, hdecoded, hcode, ?_⟩
  exact (mem_allowedCounters (windows_pos cfg).le).mp hcounter

/-- An accepted step leaves a recorded use. -/
theorem AcceptsStep.use {thread : Nat} {identityID secret : String} {step : Int}
    (haccepts : AcceptsStep platform (new cfg) (runFrom platform cfg db actions)
      thread identityID secret step) :
    ∃ entry ∈ runFrom platform cfg db actions, entry.thread = thread ∧
      ∃ use, useOf (new cfg) entry = some use ∧ use.identityID = identityID ∧
        (∃ decoded, decodeSecret platform secret = some decoded ∧
          generateTOTPCode platform decoded step (new cfg).totpDigits.toNat = use.code) ∧
        ((use.counter - step).natAbs : Int) ≤ (new cfg).totpAllowedTimeWindows := by
  obtain ⟨arg, code, usedAt, decoded, hanswered, -, hproof, hdecoded, hcode, hnear⟩ := haccepts
  obtain ⟨n, hrecorded⟩ := hproof.recorded
  exact ⟨_, mem_of_mem_own coherent_of_run hanswered hrecorded, rfl, _, rfl, rfl,
    ⟨decoded, hdecoded, hcode⟩, hnear⟩

/-- Two uses that accept one step carry the same code, less than two windows
apart. -/
theorem not_unrepeated {entry entry' : Event}
    {past : Trace} {use use' : Use} {step : Int} (hearlier : entry ∈ past)
    (huse : useOf cfg entry = some use) (huse' : useOf cfg entry' = some use')
    (hidentity : use.identityID = use'.identityID) (hcode : use.code = use'.code)
    (hnear : ((use.counter - step).natAbs : Int) ≤ cfg.totpAllowedTimeWindows)
    (hnear' : ((use'.counter - step).natAbs : Int) ≤ cfg.totpAllowedTimeWindows) :
    ¬ Unrepeated cfg past entry' := by
  intro hunrepeated
  have hfar := hunrepeated use' (by simp [huse']) use
    (List.mem_filterMap.mpr ⟨entry, hearlier, huse⟩) hidentity hcode
  omega

/-- Every call that succeeds accepts the code of some time step; and where no code is
presented again within the window, the code of a time step is accepted at most once. -/
theorem step_accepted_once (platform : Platform) (cfg : Config) (db : Database)
    (actions : Schedule) (hunrepeated : Throughout (Unrepeated (new cfg))
      (runFrom platform cfg db actions)) :
    (∀ thread arg code, ⟨thread, .verifyTOTP arg code, .answered .done⟩ ∈
        runFrom platform cfg db actions →
      ∃ secret step, AcceptsStep platform (new cfg)
        (runFrom platform cfg db actions) thread (trimSpace arg) secret step) ∧
    ∀ thread thread' identityID secret step,
      AcceptsStep platform (new cfg) (runFrom platform cfg db actions) thread
        identityID secret step →
      AcceptsStep platform (new cfg) (runFrom platform cfg db actions) thread'
        identityID secret step → thread = thread' := by
  refine ⟨fun thread arg code => exists_acceptsStep, ?_⟩
  intro thread thread' identityID secret step haccepts haccepts'
  obtain ⟨entry, hmem, hthread, use, huse, hidentity, ⟨decoded, hdecoded, hcode⟩,
    hnear⟩ := haccepts.use
  obtain ⟨entry', hmem', hthread', use', huse', hidentity',
    ⟨decoded', hdecoded', hcode'⟩, hnear'⟩ := haccepts'.use
  have hsame : use.identityID = use'.identityID := hidentity.trans hidentity'.symm
  have hcodes : use.code = use'.code := by
    rw [hdecoded] at hdecoded'
    rw [← hcode, ← hcode', Option.some.inj hdecoded']
  obtain ⟨past, hentry⟩ := exists_past_of_mem hmem
  obtain ⟨past', hentry'⟩ := exists_past_of_mem hmem'
  rcases entry_trichotomy hentry hentry' with heq | hlt | hlt
  · cases heq
    exact hthread.symm.trans hthread'
  · exact absurd (hunrepeated entry' past' hentry') (not_unrepeated
      (mem_of_suffix_cons hlt) huse huse' hsame hcodes hnear hnear')
  · exact absurd (hunrepeated entry past hentry) (not_unrepeated
      (mem_of_suffix_cons hlt) huse' huse hsame.symm hcodes.symm hnear' hnear)

end Runs

section Sample

def factorOnly : Database := ⟨.empty, .single sampleFactor, .empty, .empty⟩

/-- The code of the first time step presented twice, this many seconds apart. -/
def presentedTwice (seconds : Int) : Schedule :=
  Action.start (Request.verifyTOTP "u" "000000") ::
    List.replicate 4 (.step 0 (sampleChoice 0 [] "")) ++
  Action.start (Request.verifyTOTP "u" "000 000") ::
    List.replicate 4 (.step 1 (sampleChoice (seconds * 1000000000) [] ""))

def runTwice (seconds : Int) : Trace :=
  runFrom samplePlatform sampleConfig factorOnly (presentedTwice seconds)

theorem presented_hours_apart :
    ∃ secret step, AcceptsStep samplePlatform (new sampleConfig) (runTwice 7200) 0
      "u" secret step ∧ ¬ AcceptsStep samplePlatform (new sampleConfig)
        (runTwice 7200) 1 "u" secret step := by
  have hrun : ⟨0, .verifyTOTP "u" "000000", .answered .done⟩ ∈ runTwice 7200 ∧
      Throughout (Unrepeated (new sampleConfig)) (runTwice 7200) := by
    decide +kernel
  obtain ⟨hanswered, hunrepeated⟩ := hrun
  obtain ⟨hsome, honce⟩ := step_accepted_once samplePlatform sampleConfig factorOnly
    (presentedTwice 7200) hunrepeated
  obtain ⟨secret, step, haccepts⟩ := hsome 0 "u" "000000" hanswered
  refine ⟨secret, step, haccepts, fun haccepts' => ?_⟩
  cases honce 0 1 _ secret step haccepts haccepts'

/-- The calls and the answer of a thread that has verified the code. -/
def verifiedBy (history : Trace) (thread : Nat) (code : String) (factor : TOTPFactor)
    (usedAt : Time) : Bool :=
  decide (⟨thread, .verifyTOTP "u" code, .answered .done⟩ ∈ history) &&
    decide ((⟨.selectTOTPFactor "u", .ok (some factor)⟩ : Called Reply) ∈ own thread history) &&
    decide ((⟨.clock, usedAt⟩ : Called Reply) ∈ own thread history) &&
    decide ((⟨.updateTOTPLastUsed "u" usedAt, .ok 1⟩ : Called Reply) ∈ own thread history)

/-- The same code twice within one time step: both calls accept it. -/
theorem code_accepted_twice :
    AcceptsStep samplePlatform (new sampleConfig) (runTwice 10) 0 "u" "AA" 0 ∧
      AcceptsStep samplePlatform (new sampleConfig) (runTwice 10) 1 "u" "AA" 0 := by
  have hverified : verifiedBy (runTwice 10) 0 "000000" sampleFactor 0 = true ∧
      verifiedBy (runTwice 10) 1 "000 000" (sampleFactor.assignUsed 0) 10000000000 = true := by
    decide +kernel
  have hcodes : trimSpace "u" = "u" ∧ decodeSecret samplePlatform "AA" = some [0] ∧
      checkTOTP samplePlatform (new sampleConfig) "AA" "000000" 0 = some true ∧
      checkTOTP samplePlatform (new sampleConfig) "AA" "000 000" 10000000000 = some true := by
    decide +kernel
  simp only [verifiedBy, Bool.and_eq_true, decide_eq_true_eq, and_assoc] at hverified
  obtain ⟨hanswer, hfactor, htime, hrecorded, hanswer', hfactor', htime', hrecorded'⟩ := hverified
  obtain ⟨htrim, hdecoded, hright, hright'⟩ := hcodes
  constructor
  · exact ⟨"u", "000000", 0, [0], hanswer, htrim,
      ⟨⟨sampleFactor, hfactor, rfl⟩, htime, hright, 0, hrecorded⟩, hdecoded,
      by decide, by decide⟩
  · exact ⟨"u", "000 000", 10000000000, [0], hanswer', htrim,
      ⟨⟨sampleFactor.assignUsed 0, hfactor', rfl⟩, htime', hright', 0, hrecorded'⟩, hdecoded,
      by decide, by decide⟩

end Sample

end Aegion.MFA
