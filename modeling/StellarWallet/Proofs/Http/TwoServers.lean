import Mathlib.Logic.Relation
import StellarWallet.Proofs.Http.LastReply

/-!
One program and two hosts.

Two programs run alike if they leave the same journal, whatever went before, and end with the same
error or with related results. There is one rule for each way to build a program, so a program runs
alike on two hosts as soon as each of its requests does.
-/

namespace StellarWallet

namespace Net

variable {ε δ α β : Type} {R : α → α → Prop} {S : β → β → Prop}

/-- The same error, or related results. -/
inductive EndsAlike (R : α → α → Prop) : Except ε α → Except ε α → Prop
  | error (e : ε) : EndsAlike R (.error e) (.error e)
  | ok {a a' : α} (h : R a a') : EndsAlike R (.ok a) (.ok a')

lemma endsAlike_refl (hR : ∀ a, R a a) (x : Except ε α) : EndsAlike R x x := by
  cases x with
  | error e => exact .error e
  | ok a => exact .ok (hR a)

lemma EndsAlike.mapError {x x' : Except ε α} (h : EndsAlike R x x') (g : ε → δ) :
    EndsAlike R (x.mapError g) (x'.mapError g) := by
  cases h with
  | error e => exact .error (g e)
  | ok h => exact .ok h

lemma EndsAlike.eq {x x' : Except ε α} (h : EndsAlike Eq x x') : x' = x := by
  cases h with
  | error e => rfl
  | ok h => rw [h]

/-- What the first program does on one host, the second does on the other, and they end alike. -/
structure RunsAlike (host host' : Host) (R : α → α → Prop) (p p' : Net ε α) : Prop where
  journal : ∀ j, (p' host' j).2 = (p host j).2
  ending : ∀ j, EndsAlike R (p host j).1 (p' host' j).1

namespace RunsAlike

variable {host host' : Host} {p p' : Net ε α} {f f' : α → Net ε β}

/-- A program that sends nothing. -/
lemma silent (hR : ∀ a, R a a) (h : ∀ j, p host' j = p host j) :
    RunsAlike host host' R p p where
  journal := fun j => congrArg Prod.snd (h j)
  ending := fun j => by
    rw [h]
    exact endsAlike_refl hR _

lemma pure {a a' : α} (h : R a a') :
    RunsAlike host host' R (Pure.pure a : Net ε α) (Pure.pure a') where
  journal := fun _ => rfl
  ending := fun _ => .ok h

lemma ofExcept {x x' : Except ε α} (h : EndsAlike R x x') :
    RunsAlike host host' R (Net.ofExcept x) (Net.ofExcept x') := by
  cases h with
  | error e => exact ⟨fun _ => rfl, fun _ => .error e⟩
  | ok h => exact pure h

lemma bind (hp : RunsAlike host host' R p p')
    (hf : ∀ a a', R a a' → RunsAlike host host' S (f a) (f' a')) :
    RunsAlike host host' S (p >>= f) (p' >>= f') := by
  -- Both programs go on from the same journal, or stop with the same error.
  have hrun (j : Journal) : (∃ e, (p >>= f) host j = (.error e, (p host j).2) ∧
      (p' >>= f') host' j = (.error e, (p host j).2)) ∨
      ∃ a a', R a a' ∧ (p >>= f) host j = f a host (p host j).2 ∧
        (p' >>= f') host' j = f' a' host' (p host j).2 := by
    generalize hx : (p host j).1 = x
    generalize hx' : (p' host' j).1 = x'
    have hends := hp.ending j
    rw [hx, hx'] at hends
    cases hends with
    | error e =>
      exact Or.inl ⟨e, bind_of_error (Prod.ext hx rfl), bind_of_error (Prod.ext hx' (hp.journal j))⟩
    | @ok a a' h =>
      exact Or.inr ⟨a, a', h, bind_of_ok (Prod.ext hx rfl),
        bind_of_ok (Prod.ext hx' (hp.journal j))⟩
  constructor
  case journal =>
    intro j
    obtain ⟨e, hj, hj'⟩ | ⟨a, a', h, hj, hj'⟩ := hrun j
    · rw [hj, hj']
    · rw [hj, hj', (hf a a' h).journal]
  case ending =>
    intro j
    obtain ⟨e, hj, hj'⟩ | ⟨a, a', h, hj, hj'⟩ := hrun j
    · rw [hj, hj']
      exact .error e
    · rw [hj, hj']
      exact (hf a a' h).ending _

lemma outcome (hp : RunsAlike host host' R p p') :
    RunsAlike host host' (EndsAlike R) (p.outcome : Net δ (Except ε α)) p'.outcome where
  journal := hp.journal
  ending := fun j => .ok (hp.ending j)

lemma mapError (g : ε → δ) (hp : RunsAlike host host' R p p') :
    RunsAlike host host' R (p.mapError g) (p'.mapError g) := by
  have hrun (q : Net ε α) (host : Host) (j : Journal) :
      q.mapError g host j = ((q host j).1.mapError g, (q host j).2) := by
    rw [Net.mapError]
    split <;> next h => rw [h]; rfl
  constructor
  case journal =>
    intro j
    rw [hrun, hrun, hp.journal]
  case ending =>
    intro j
    rw [hrun, hrun]
    exact (hp.ending j).mapError g

lemma note (part : String) (level : LogLevel) (message : String) :
    RunsAlike host host' Eq (Net.note part level message : Net ε Unit)
      (Net.note part level message) :=
  silent Eq.refl fun _ => rfl

lemma ofHost : RunsAlike host host' (fun a a' => a = host ∧ a' = host') (Net.host : Net ε Host)
    Net.host := ⟨fun _ => rfl, fun _ => .ok ⟨rfl, rfl⟩⟩

lemma sleep (h : host'.refusal = host.refusal) (delay : Number) :
    RunsAlike host host' Eq (Net.sleep delay) (Net.sleep delay) :=
  silent Eq.refl fun j => by rw [Net.sleep, Net.sleep, h]

end RunsAlike

end Net

/-- The hosts reply alike, but for the related values that requests without options may bring, and
are the same otherwise. -/
structure Host.AlikeUpTo (R : Value → Value → Prop) (host host' : Host) : Prop where
  reader : host'.reader = host.reader
  refusal : host'.refusal = host.refusal
  schedule : host'.schedule = host.schedule
  replies : ∀ past request, host'.server past request = host.server past request ∨
    request.options = [] ∧ ∃ v v', (host.server past request).value? host.reader = some v ∧
      (host'.server past request).value? host.reader = some v' ∧ R v v'

namespace Client

variable {R : Value → Value → Prop} {host host' : Host} (h : host.AlikeUpTo R host')
  (c : Client) (optional : Bool) (request : Request) (context : String)

open Net (RunsAlike)

/-- Whether the value of a reply is at hand or not. -/
lemma value_alike {reply reply' : Reply} (hreply : reply' = reply ∨
      ∃ v v', reply.value? host.reader = some v ∧ reply'.value? host.reader = some v' ∧ R v v') :
    Net.EndsAlike (Relation.ReflGen R) (value host.reader optional request.url reply)
      (value host.reader optional request.url reply') := by
  obtain rfl | ⟨v, v', hv, hv', hrelated⟩ := hreply
  · exact Net.endsAlike_refl (fun _ => .refl) _
  · rw [value_of_value? hv, value_of_value? hv']
    exact .ok (.single hrelated)

include h in
lemma attempts_runsAlike (left number : Nat) :
    RunsAlike host host' (Relation.ReflGen R)
      (c.attempts optional request context left number)
      (c.attempts optional request context left number) := by
  have hsend : RunsAlike host host'
      (fun reply reply' => reply' = reply ∨ ∃ v v', reply.value? host.reader = some v ∧
        reply'.value? host.reader = some v' ∧ R v v')
      (Net.send request : Net ClientFault Reply) (Net.send request) :=
    ⟨fun _ => rfl, fun j => .ok ((h.replies j.requests request).imp_right And.right)⟩
  induction left generalizing number with
  | zero =>
    unfold attempts
    refine hsend.bind fun reply reply' hreply => RunsAlike.ofHost.bind ?_
    rintro _ _ ⟨hhost, hhost'⟩
    rw [hhost, hhost', h.reader]
    have halike := value_alike optional request hreply
    generalize value _ optional request.url reply = result at halike ⊢
    generalize value _ optional request.url reply' = result' at halike ⊢
    cases halike with
    | error fault => exact .silent (fun _ => .refl) fun _ => rfl
    | ok hv => exact .pure hv
  | succ left ih =>
    unfold attempts
    refine hsend.bind fun reply reply' hreply => RunsAlike.ofHost.bind ?_
    rintro _ _ ⟨hhost, hhost'⟩
    rw [hhost, hhost', h.reader]
    have halike := value_alike optional request hreply
    generalize value _ optional request.url reply = result at halike ⊢
    generalize value _ optional request.url reply' = result' at halike ⊢
    cases halike with
    | ok hv => exact .pure hv
    | error fault =>
      dsimp only
      split
      · have hdelay : RunsAlike host host' Eq
            ((Net.ofExcept (c.retry.delay number)).mapError ClientFault.delay)
            ((Net.ofExcept (c.retry.delay number)).mapError ClientFault.delay) :=
          (RunsAlike.ofExcept (Net.endsAlike_refl Eq.refl _)).mapError _
        refine hdelay.bind ?_
        rintro delay _ rfl
        refine .bind (.note _ _ _) fun _ _ _ => ?_
        refine .bind (R := Eq) (.silent Eq.refl fun _ => rfl) fun _ _ _ => ?_
        refine ((RunsAlike.sleep h.refusal delay).mapError _).bind fun _ _ _ => ?_
        exact ih (number + 1)
      · exact .silent (fun _ => .refl) fun _ => rfl

include h in
/-- A call does the same on both hosts. -/
lemma call_runsAlike :
    RunsAlike host host' (Relation.ReflGen R) (c.call optional request context)
      (c.call optional request context) := by
  rw [call]
  split
  · exact .silent (fun _ => .refl) fun _ => rfl
  · exact attempts_runsAlike h c optional request context _ _

end Client

end StellarWallet
