import StellarWallet.Proofs.Http.Repetitions
import StellarWallet.Proofs.Number.Powers

/-!
The growth of the pauses.

A pause is never longer than the limit of its policy. But the power in it is computed before the
limit is applied, and it has no value when it is too large for binary64. Such a pause ends the call,
and not with a failure of the network. A policy of whole numbers is free of this. A pause that the
host refuses ends the call as well; the clock refuses none that is neither negative nor longer than
a century.
-/

namespace StellarWallet

open Binary64 (bound)

/-! ### The clock -/

namespace Binary64

lemma toRat_ofInt_clockBound :
    (ofInt clockBound).isFinite = true ∧ (ofInt clockBound).toRat = 2 ^ 63 := by
  have h : ofInt clockBound = .finite false (twoTo 52) 11 (by decide) := by decide +kernel
  rw [h]
  refine ⟨rfl, ?_⟩
  rw [toRat, signed, if_neg Bool.false_ne_true, twoTo, Nat.pow_eq]
  norm_num

lemma toRat_ofInt_neg_clockBound :
    (ofInt (-clockBound)).isFinite = true ∧ (ofInt (-clockBound)).toRat = -2 ^ 63 := by
  have h : ofInt (-clockBound) = .finite true (twoTo 52) 11 (by decide) := by decide +kernel
  rw [h]
  refine ⟨rfl, ?_⟩
  rw [toRat, signed, if_pos rfl, twoTo, Nat.pow_eq]
  norm_num

end Binary64

/-- So many seconds the clock can count; they are more than a century. -/
def clockLimit : ℕ := 4 * 10 ^ 9

lemma clockRefusal_whole {n : ℤ} (hnonneg : 0 ≤ n) (hle : n ≤ clockLimit) :
    clockRefusal (.whole n) = none := by
  have hle' : n ≤ 4 * 10 ^ 9 := by exact_mod_cast hle
  rw [clockRefusal, clockBound, decide_eq_true (by omega), decide_eq_true (by omega),
    decide_eq_false (by omega)]
  rfl

/-- As many nanoseconds are a finite number that is not negative and below what the clock counts. -/
lemma nanoseconds_spec {x : Binary64} (hx : x.isFinite = true) (hnonneg : 0 ≤ x.toRat)
    (hle : x.toRat ≤ clockLimit) :
    (x.mul (.ofInt 1000000000)).isFinite = true ∧ 0 ≤ (x.mul (.ofInt 1000000000)).toRat ∧
      (x.mul (.ofInt 1000000000)).toRat < 2 ^ 63 := by
  have hnano : (Binary64.ofInt 1000000000).isFinite = true := by decide +kernel
  have hnano' : (Binary64.ofInt 1000000000).toRat = 1000000000 := by
    exact_mod_cast Binary64.toRat_ofInt (show 1000000000 ≤ twoTo 53 by decide)
  have hpos : 0 ≤ (Binary64.ofInt 1000000000).toRat := by
    rw [hnano']
    norm_num
  have hsize : x.toRat * (Binary64.ofInt 1000000000).toRat ≤ 4 * 10 ^ 18 := by
    have hle' : x.toRat ≤ 4 * 10 ^ 9 := by exact_mod_cast hle
    rw [hnano']
    linarith
  have hbound : (4 * 10 ^ 18 : ℚ) < bound := by
    exact_mod_cast (show 4 * 10 ^ 18 < bound by decide +kernel)
  obtain ⟨hproduct, hupper⟩ := Binary64.toRat_mul_le hx hnonneg hnano hpos (hsize.trans_lt hbound)
  refine ⟨hproduct, (Binary64.isGrown_mul hx hnonneg hnano hpos).nonneg hproduct, ?_⟩
  linarith

lemma clockRefusal_real {x : Binary64} (hx : x.isFinite = true) (hnonneg : 0 ≤ x.toRat)
    (hle : x.toRat ≤ clockLimit) : clockRefusal (.real x) = none := by
  obtain ⟨hproduct, hlower, hupper⟩ := nanoseconds_spec hx hnonneg hle
  obtain ⟨hhigh, hhigh'⟩ := Binary64.toRat_ofInt_clockBound
  obtain ⟨hlow, hlow'⟩ := Binary64.toRat_ofInt_neg_clockBound
  have h1 : (x.mul (.ofInt 1000000000)).lt (.ofInt (-clockBound)) = false := by
    rw [Bool.eq_false_iff, Ne, Binary64.lt_iff_toRat hproduct hlow, hlow']
    linarith
  have h2 : (x.mul (.ofInt 1000000000)).lt (.ofInt clockBound) = true := by
    rwa [Binary64.lt_iff_toRat hproduct hhigh, hhigh']
  have h3 : (x.mul (.ofInt 1000000000)).lt (.zero false) = false := by
    rw [Bool.eq_false_iff, Ne, Binary64.lt_iff_toRat hproduct rfl, Binary64.toRat_zero]
    exact not_lt.2 hlower
  cases x with
  | finite a m q hc =>
    simp only [clockRefusal]
    rw [h1, h2, h3]
    rfl
  | _ => cases hx

/-- The clock takes a pause that is neither negative nor too long. -/
lemma clockRefusal_eq_none {d : Number} (hfinite : d.IsFinite) (hnonneg : 0 ≤ d.toRat)
    (hle : d.toRat ≤ clockLimit) : clockRefusal d = none := by
  cases d with
  | whole n =>
    have hn : 0 ≤ n := Int.cast_nonneg_iff.1 (show (0 : ℚ) ≤ n from hnonneg)
    have hn' : n ≤ clockLimit := by exact_mod_cast (show (n : ℚ) ≤ clockLimit from hle)
    exact clockRefusal_whole hn hn'
  | real x => exact clockRefusal_real hfinite hnonneg hle

/-! ### Pauses -/

namespace RetryPolicy

/-- A base and a limit that are not negative, and a factor that does not shrink. -/
structure IsSound (p : RetryPolicy) : Prop where
  base_finite : p.baseDelay.IsFinite
  base_nonneg : 0 ≤ p.baseDelay.toRat
  max_finite : p.maxDelay.IsFinite
  max_nonneg : 0 ≤ p.maxDelay.toRat
  factor_finite : p.factor.IsFinite
  one_le_factor : 1 ≤ p.factor.toRat

/-- Between nothing and the limit. -/
def IsPause (p : RetryPolicy) (d : Number) : Prop :=
  d.IsFinite ∧ 0 ≤ d.toRat ∧ d.toRat ≤ p.maxDelay.toRat

/-- The pauses are computed with whole numbers only. -/
def IsWhole (p : RetryPolicy) : Prop :=
  (∃ b, p.baseDelay = .whole b) ∧ ∃ f, p.factor = .whole f

/-- All that the pause after an attempt is computed from is in the range of binary64, the power by a
factor of two. -/
def Fits (p : RetryPolicy) (n : Nat) : Prop :=
  p.IsWhole ∨ p.baseDelay.toRat < bound ∧ 2 * p.factor.toRat ^ n < bound ∧
    (n < bound ∨ ∃ f, p.factor = .whole f)

/-- Something that the pause after an attempt is computed from is out of the range of binary64, the
power by a factor of two. -/
def Outgrows (p : RetryPolicy) (n : Nat) : Prop :=
  ¬ p.IsWhole ∧ (bound ≤ p.baseDelay.toRat ∨ 2 * bound ≤ p.factor.toRat ^ n ∨
    bound ≤ n ∧ ∃ x, p.factor = .real x)

lemma toRat_factor_default : ({} : RetryPolicy).factor.toRat = 2 :=
  Binary64.toRat_ofInt (show 2 ≤ twoTo 53 by decide)

/-- The policy that is used where none is given, with any number of repetitions. -/
lemma isSound_default (r : Int) : ({ maxRetries := r } : RetryPolicy).IsSound where
  base_finite := show (Binary64.ofRatio false 1 2).isFinite = true by decide +kernel
  base_nonneg := (Binary64.isGrown_ofRatio 1 two_pos).nonneg
    (show (Binary64.ofRatio false 1 2).isFinite = true by decide +kernel)
  max_finite := show (Binary64.ofInt 8).isFinite = true by decide +kernel
  max_nonneg := (Binary64.isGrown_ofRatio 8 Nat.one_pos).nonneg
    (show (Binary64.ofInt 8).isFinite = true by decide +kernel)
  factor_finite := show (Binary64.ofInt 2).isFinite = true by decide +kernel
  one_le_factor := by
    rw [toRat_factor_default]
    norm_num

variable {p : RetryPolicy}

/-- The power in a pause: exact if the factor is whole, and else in the range of binary64. -/
lemma factor_pow (h : p.IsSound) (n : Nat) :
    (p.factor.pow n = .error .overflow ∧ ¬ p.Fits n) ∨
      ∃ a, p.factor.pow n = .ok a ∧ a.IsFinite ∧ 0 ≤ a.toRat ∧
        ((∃ f k, p.factor = .whole f ∧ a = .whole k) ∧ a.toRat = p.factor.toRat ^ n ∨
          (∃ x y, p.factor = .real x ∧ a = .real y) ∧ n < bound ∧
            p.factor.toRat ^ n < 2 * bound) := by
  have hone := h.one_le_factor
  cases hfactor : p.factor with
  | whole f =>
    have hpow : Number.toRat (.whole (f ^ n)) = Number.toRat (.whole f) ^ n := by
      rw [Number.toRat, Number.toRat, Int.cast_pow]
    rw [hfactor] at hone
    refine Or.inr ⟨_, Number.pow_whole f n, trivial, ?_, Or.inl ⟨⟨f, _, rfl, rfl⟩, hpow⟩⟩
    rw [hpow]
    exact pow_nonneg (zero_le_one.trans hone) n
  | real x =>
    have hreal : ¬ ∃ f, p.factor = .whole f := by
      rw [hfactor]
      rintro ⟨f, hf⟩
      cases hf
    rw [hfactor] at hone
    obtain ⟨hpower, hlarge⟩ | ⟨y, hpower, hfinite, hnonneg, hn, hsmall⟩ :=
      Number.powReal_natCast hone n
    · refine Or.inl ⟨hpower, ?_⟩
      rintro (hwhole | ⟨-, hfits, hn⟩)
      · exact hreal hwhole.2
      · rw [hfactor] at hfits
        rcases hlarge with hlarge | hlarge
        · exact absurd (hn.resolve_right hreal) (not_lt.2 hlarge)
        · exact absurd hfits (not_lt.2 hlarge)
    · exact Or.inr ⟨_, hpower, hfinite, hnonneg, Or.inr ⟨⟨x, y, rfl, rfl⟩, hn, hsmall⟩⟩

/-- **The law of pauses.** A pause keeps the limit, or it has no length as it grows too large. -/
lemma delay_spec (h : p.IsSound) (n : Nat) :
    (p.delay n = .error .overflow ∧ ¬ p.Fits n) ∨
      ∃ d, p.delay n = .ok d ∧ p.IsPause d ∧ ¬ p.Outgrows n := by
  obtain ⟨hpower, hfits⟩ | ⟨a, hpower, hfinite, hnonneg, hform⟩ := factor_pow h n
  · exact Or.inl ⟨by rw [delay, hpower]; rfl, hfits⟩
  obtain ⟨hmul, hlarge⟩ | ⟨c, hmul, hgrown, hsmall⟩ :=
    Number.mul_of_nonneg h.base_finite h.base_nonneg hfinite hnonneg
  · refine Or.inl ⟨by simp only [delay, hpower, bind, Except.bind, hmul], ?_⟩
    rintro (⟨⟨b, hb⟩, f, hf⟩ | ⟨hbase, hfits, -⟩)
    · obtain ⟨⟨-, k, -, rfl⟩, -⟩ | ⟨⟨x, -, hx, -⟩, -⟩ := hform
      · rw [hb] at hmul
        cases hmul
      · cases hf.symm.trans hx
    · have ha := hlarge.resolve_left (not_le.2 hbase)
      obtain ⟨-, hpow⟩ | ⟨⟨-, y, -, rfl⟩, -⟩ := hform
      · linarith
      · exact absurd (Binary64.toRat_lt_bound y) (not_lt.2 ha)
  · refine Or.inr ⟨c.min p.maxDelay, by simp only [delay, hpower, bind, Except.bind, hmul]; rfl,
      Number.min_le hgrown h.max_finite h.max_nonneg, ?_⟩
    rintro ⟨hwhole, hlarge⟩
    obtain ⟨b, k, hb, rfl⟩ | ⟨hbase, ha⟩ := hsmall
    · obtain ⟨⟨f, -, hf, -⟩, -⟩ | ⟨⟨-, y, -, hy⟩, -⟩ := hform
      · exact hwhole ⟨⟨b, hb⟩, f, hf⟩
      · cases hy
    · obtain ⟨⟨f, -, hf, -⟩, hpow⟩ | ⟨-, hn, hpow⟩ := hform
      · obtain hlarge | hlarge | ⟨-, x, hx⟩ := hlarge
        · linarith
        · linarith
        · cases hf.symm.trans hx
      · obtain hlarge | hlarge | ⟨hlarge, -⟩ := hlarge
        · linarith
        · linarith
        · omega

lemma isPause_of_delay (h : p.IsSound) {n : Nat} {d : Number} (hd : p.delay n = .ok d) :
    p.IsPause d ∧ ¬ p.Outgrows n := by
  obtain ⟨herror, -⟩ | ⟨d', hd', hpause, hsmall⟩ := delay_spec h n
  · cases herror.symm.trans hd
  · cases hd'.symm.trans hd
    exact ⟨hpause, hsmall⟩

lemma eq_overflow_of_delay (h : p.IsSound) {n : Nat} {e : ArithmeticFault}
    (he : p.delay n = .error e) : e = .overflow ∧ ¬ p.Fits n := by
  obtain ⟨herror, hfits⟩ | ⟨d, hd, -⟩ := delay_spec h n
  · cases herror.symm.trans he
    exact ⟨rfl, hfits⟩
  · cases hd.symm.trans he

end RetryPolicy

namespace Client

/-- A call of a client whose policy is sound. It ends with a value or with a failure of the network,
unless a pause before one of its attempts may grow too large or is refused; and if one does or is
and every attempt fails, then the call ends with that. -/
lemma call_backoff {c : Client} (h : c.retry.IsSound) (host : Host) (optional : Bool)
    (request : Request) (context : String) (j : Journal) :
    let run := c.call optional request context host j
    (∃ events : Journal, run.2 = j ++ events ∧ ∀ d ∈ events.sleeps, c.retry.IsPause d) ∧
      ((∃ v, run.1 = .ok v) ∨ (∃ f, run.1 = .error (.network f)) ∨
        (run.1 = .error (.delay .overflow) ∧
          ∃ n : Nat, n < c.retry.maxRetries ∧ ¬ c.retry.Fits n) ∨
        ∃ refusal d, run.1 = .error (.sleep refusal) ∧ c.retry.IsPause d ∧
          host.refusal d = some refusal) ∧
      ((∃ n : Nat, n < c.retry.maxRetries ∧ c.retry.Outgrows n) →
        (∀ i, ∃ fault, outcomeAt host optional request j.requests i = .error fault ∧
          c.retry.MayPass fault) →
        (∀ d, c.retry.IsPause d → host.refusal d = none) →
        run.1 = .error (.delay .overflow)) := by
  intro run
  rcases lt_or_ge c.retry.maxRetries 0 with hnone | hretries
  · have hrun : run = (.error (.network (.ofFault noAttempt request.url context)), j) := by
      simp only [run, call, if_pos hnone]
      rfl
    rw [hrun]
    refine ⟨⟨[], (List.append_nil j).symm, fun d hd => by cases hd⟩, Or.inr (Or.inl ⟨_, rfl⟩), ?_⟩
    rintro ⟨n, hn, -⟩
    omega
  obtain ⟨events, delays, hevents, htraffic, hlength, hdelays, hends⟩ :=
    call_attempts hretries host optional request context j
  have hpauses : ∀ d ∈ events.sleeps, c.retry.IsPause d := by
    rw [Journal.sleeps_of_traffic request delays htraffic]
    intro d hd
    obtain ⟨i, hi⟩ := List.getElem?_of_mem hd
    exact (RetryPolicy.isPause_of_delay h (hdelays i d hi)).1
  change c.EndsWith _ _ _ _ _ _ _ run.1 at hends
  refine ⟨⟨events, hevents, hpauses⟩, ?_⟩
  generalize run.1 = result at hends ⊢
  cases hends with
  | @answered v hv =>
    refine ⟨Or.inl ⟨v, rfl⟩, fun _ hfails _ => ?_⟩
    obtain ⟨fault, hfault, -⟩ := hfails delays.length
    cases hv.symm.trans hfault
  | @failed fault hf last =>
    refine ⟨Or.inr (Or.inl ⟨_, rfl⟩), ?_⟩
    rintro ⟨n, hn, hgrows⟩ hfails -
    obtain hlast | hstays := last
    · -- All pauses were made, also the one that has no length.
      have hlt : n < delays.length := by omega
      have hdelay := hdelays n _ (List.getElem?_eq_getElem hlt)
      exact absurd hgrows (RetryPolicy.isPause_of_delay h hdelay).2
    · obtain ⟨fault', hfault, hpass⟩ := hfails delays.length
      cases hf.symm.trans hfault
      rw [RetryPolicy.retries_iff.2 hpass] at hstays
      cases hstays
  | undelayed hf more passes hdelay =>
    obtain ⟨rfl, hfits⟩ := RetryPolicy.eq_overflow_of_delay h hdelay
    exact ⟨Or.inr (Or.inr (Or.inl ⟨rfl, delays.length, by omega, hfits⟩)), fun _ _ _ => rfl⟩
  | refused hf more passes hdelay hrefusal =>
    have hpause := (RetryPolicy.isPause_of_delay h hdelay).1
    refine ⟨Or.inr (Or.inr (Or.inr ⟨_, _, rfl, hpause, hrefusal⟩)), fun _ _ htakes => ?_⟩
    cases hrefusal.symm.trans (htakes _ hpause)

/-- **The law of backoff.** With a sound policy every pause is at most its limit, or has no length
as what it is computed from is too large for binary64; the first holds of what is in the range, and
the second of what is out of it. A call ends with a value, with a failure of the network, for want
of a pause, or with the refusal of one; for want of one only if some pause before its last attempt
is not in the range. It does end so if a pause is out of the range, no pause is refused and every
attempt fails. The clock refuses none if the limit is a century or less. -/
theorem backoff_keeps_limit_or_overflows (p : RetryPolicy) (h : p.IsSound) :
    (∀ n : Nat,
      (p.delay n = .error .overflow ∨ ∃ d, p.delay n = .ok d ∧ p.IsPause d) ∧
      (p.Fits n → ∃ d, p.delay n = .ok d ∧ p.IsPause d) ∧
      (p.Outgrows n → p.delay n = .error .overflow)) ∧
    (p.maxDelay.toRat ≤ clockLimit → ∀ d, p.IsPause d → clockRefusal d = none) ∧
    ∀ (c : Client) (verb : Verb) (endpoint context : String) (options : List (String × Value))
      (host : Host) (j : Journal), c.retry = p →
      let request := c.request verb.method endpoint options
      let run := verb.ask c endpoint context options host j
      (∃ events : Journal, run.2 = j ++ events ∧ ∀ d ∈ events.sleeps, p.IsPause d) ∧
      ((∃ v, run.1 = .ok v) ∨ (∃ f, run.1 = .error (.network f)) ∨
        (run.1 = .error (.delay .overflow) ∧ ∃ n : Nat, n < p.maxRetries ∧ ¬ p.Fits n) ∨
        ∃ refusal d, run.1 = .error (.sleep refusal) ∧ p.IsPause d ∧
          host.refusal d = some refusal) ∧
      ((∃ n : Nat, n < p.maxRetries ∧ p.Outgrows n) →
        (∀ i, ∃ fault, outcomeAt host verb.isOptional request j.requests i = .error fault ∧
          p.MayPass fault) →
        (∀ d, p.IsPause d → host.refusal d = none) →
        run.1 = .error (.delay .overflow)) := by
  refine ⟨fun n => ?_, ?_, ?_⟩
  · obtain ⟨herror, hfits⟩ | ⟨d, hd, hpause, hsmall⟩ := RetryPolicy.delay_spec h n
    · exact ⟨Or.inl herror, fun hfit => absurd hfit hfits, fun _ => herror⟩
    · exact ⟨Or.inr ⟨d, hd, hpause⟩, fun _ => ⟨d, hd, hpause⟩, fun hgrows => absurd hgrows hsmall⟩
  · rintro hlimit d ⟨hfinite, hnonneg, hle⟩
    exact clockRefusal_eq_none hfinite hnonneg (hle.trans hlimit)
  · rintro c verb endpoint context options host j rfl request run
    have hrun : run = c.call verb.isOptional request context host j :=
      congrFun (congrFun (Verb.ask_eq_call c endpoint context options verb) host) j
    rw [hrun]
    exact call_backoff h host verb.isOptional request context j

/-- The policy that is used where none is given keeps its limit for more than a thousand
attempts. -/
theorem backoff_of_default : ({} : RetryPolicy).IsSound ∧ ∀ n ≤ 1022,
    ∃ d, ({} : RetryPolicy).delay (n : Nat) = .ok d ∧ ({} : RetryPolicy).IsPause d := by
  have hsound := RetryPolicy.isSound_default 2
  refine ⟨hsound, fun n hn => ((backoff_keeps_limit_or_overflows {} hsound).1 n).2.1 ?_⟩
  refine Or.inr ⟨Binary64.toRat_lt_bound _, ?_, Or.inl ?_⟩
  · have hpower : (2 : ℚ) * 2 ^ n ≤ (2 : ℚ) ^ (1023 : ℤ) := by
      rw [← pow_succ', ← zpow_natCast]
      exact zpow_le_zpow_right₀ one_le_two (by omega)
    rw [RetryPolicy.toRat_factor_default]
    exact hpower.trans_lt Binary64.lt_bound
  · have hbound : 1022 < bound := by decide +kernel
    exact hn.trans_lt hbound

/-- The same policy has no pause after the attempt with the number 1024. A client that may repeat a
request so often fails for want of a pause where every reply is a failure of the server. And one
whose pauses may take ten thousand million seconds fails with what the clock refuses the first
with. -/
theorem backoff_of_default_overflows : ({} : RetryPolicy).IsSound ∧
    ({} : RetryPolicy).delay 1024 = .error .overflow ∧
    let server : Server := fun _ _ => .answer 503 "busy"
    let c := Client.ofBase "https://ledger.test" {} { maxRetries := 1026 }
    let slow : RetryPolicy :=
      { maxRetries := 1, baseDelay := .whole (10 ^ 10), maxDelay := .whole (10 ^ 10)
        factor := .whole 1 }
    c.retry.IsSound ∧ (Verb.get.ask c "fees" "Fees" [] { server } []).1 = .error (.delay .overflow) ∧
      slow.IsSound ∧ slow.delay 0 = .ok (.whole (10 ^ 10)) ∧
      (Verb.get.ask (Client.ofBase "https://ledger.test" {} slow) "fees" "Fees" [] { server } []).1
        = .error (.sleep ⟨.overflow, "timestamp too large to convert to C _PyTime_t"⟩) := by
  have hsound := RetryPolicy.isSound_default 1026
  refine ⟨RetryPolicy.isSound_default 2, by decide +kernel, hsound, ?_, ?_, by decide +kernel, ?_⟩
  · have htakes : ∀ d, ({ maxRetries := 1026 } : RetryPolicy).IsPause d →
        clockRefusal d = none := by
      rintro d ⟨hfinite, hnonneg, hle⟩
      refine clockRefusal_eq_none hfinite hnonneg (hle.trans ?_)
      have height : (Binary64.ofInt 8).toRat = 8 :=
        Binary64.toRat_ofInt (show 8 ≤ twoTo 53 by decide)
      have hlimit : (8 : ℚ) ≤ clockLimit := by exact_mod_cast (show 8 ≤ clockLimit by decide)
      exact height.trans_le hlimit
    refine (call_backoff (c := Client.ofBase "https://ledger.test" {} { maxRetries := 1026 }) hsound
      { server := fun _ _ => .answer 503 "busy" } false _ "Fees" []).2.2 ⟨1025, by decide, ?_, ?_⟩
      (fun i => ?_) htakes
    · rintro ⟨⟨b, hb⟩, -⟩
      cases hb
    · refine Or.inr (Or.inl ?_)
      change 2 * (bound : ℚ) ≤ ({} : RetryPolicy).factor.toRat ^ 1025
      rw [RetryPolicy.toRat_factor_default, pow_succ', ← zpow_natCast]
      exact mul_le_mul_of_nonneg_left Binary64.bound_lt.le zero_le_two
    · exact ⟨_, rfl, Or.inr (Or.inr ⟨⟨503, "busy"⟩, rfl, by decide, by decide⟩)⟩
  · exact {
      base_finite := trivial
      base_nonneg := show (0 : ℚ) ≤ ((10 ^ 10 : ℤ) : ℚ) by norm_num
      max_finite := trivial
      max_nonneg := show (0 : ℚ) ≤ ((10 ^ 10 : ℤ) : ℚ) by norm_num
      factor_finite := trivial
      one_le_factor := show (1 : ℚ) ≤ ((1 : ℤ) : ℚ) by norm_num }
  · let slow : RetryPolicy :=
      { maxRetries := 1, baseDelay := .whole (10 ^ 10), maxDelay := .whole (10 ^ 10)
        factor := .whole 1 }
    let c := Client.ofBase "https://ledger.test" {} slow
    have hdelay : slow.delay (0 : Nat) = .ok (.whole (10 ^ 10)) := by decide +kernel
    have hrefusal : clockRefusal (.whole (10 ^ 10))
        = some ⟨.overflow, "timestamp too large to convert to C _PyTime_t"⟩ := by decide +kernel
    have hrun := attempts_of_refused c { server := fun _ _ => .answer 503 "busy" } false
      (c.request .get "fees" []) "Fees" 0 0 [] rfl rfl hdelay hrefusal
    exact congrArg Prod.fst hrun

end Client

end StellarWallet
