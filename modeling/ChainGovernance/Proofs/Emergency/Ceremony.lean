import Mathlib.Tactic
import ChainGovernance.Emergency.Ceremony
import ChainGovernance.Proofs.Aggregate

/-!
Runs of a ceremony.

A run is any list of calls, those that fail or come out of order included; `after` is the ceremony
it leads to, and `events` are its calls with their answers. `Tracks` is the invariant of a run: at
each phase it says which parts the ceremony holds, and how they come from the calls that succeeded
so far. What a call that succeeds does is said once (`Takes`). `Tracks.step` is the step of the invariant
and `tracks_after` the run, from which what a ceremony guarantees can be read off.
-/

namespace ChainGovernance.Emergency

namespace Ceremony

/-- A call of a ceremony. -/
inductive Call
  | signProposer (proposer : Wallet)
  | signQuorum (admins : SignerSet) (wallets : List Wallet)
  | finalize (requester : Wallet)

/-- A call and its answer. Only `finalize` has something to hand out. -/
structure Event where
  call : Call
  answer : Except Error (Option Request)

namespace Call

/-- The phases at which a call is in order. -/
def phases : Call → List Phase
  | signProposer _ => [.built]
  | signQuorum .. => [.proposerSigned, .quorumSigned]
  | finalize _ => [.quorumSigned]

/-- The phase that a call asks for when it comes out of order. -/
def expected : Call → Phase
  | signProposer _ => .built
  | signQuorum .. => .proposerSigned
  | finalize _ => .quorumSigned

/-- The wallets that a call may ask for a signature. -/
def wallets : Call → List Wallet
  | signProposer w => [w]
  | signQuorum _ ws => ws
  | finalize w => [w]

end Call

/-- Makes a call. -/
def step (c : Ceremony) : Call → Except Error (Option Request) × Ceremony
  | .signProposer w => (c.signProposer w).map (Except.map fun _ => none) id
  | .signQuorum admins ws => (c.signQuorum admins ws).map (Except.map fun _ => none) id
  | .finalize w => (c.finalize w).map (Except.map some) id

/-- The ceremony after some calls. -/
def after (c : Ceremony) : List Call → Ceremony
  | [] => c
  | call :: calls => (c.step call).2.after calls

/-- Some calls with their answers. -/
def events (c : Ceremony) : List Call → List Event
  | [] => []
  | call :: calls => ⟨call, (c.step call).1⟩ :: (c.step call).2.events calls

/-! ### What succeeded in a run -/

/-- What succeeded in a run: the proposers, the quorums (the set of admins, and the wallets that
signed for it) and the requesters that signed, and the requests that were handed out. -/
structure Successes where
  proposers : List Wallet := []
  quorums : List (SignerSet × List Wallet) := []
  requesters : List Wallet := []
  requests : List Request := []

/-- The wallets that signed. -/
def Successes.wallets (s : Successes) : List Wallet :=
  s.proposers ++ s.quorums.flatMap Prod.snd ++ s.requesters

/-- What succeeded among some calls with their answers. -/
def successes (events : List Event) : Successes where
  proposers := events.filterMap fun
    | ⟨.signProposer w, .ok _⟩ => some w
    | _ => none
  quorums := events.filterMap fun
    | ⟨.signQuorum admins ws, .ok _⟩ => some (admins, ws)
    | _ => none
  requesters := events.filterMap fun
    | ⟨.finalize w, .ok _⟩ => some w
    | _ => none
  requests := events.filterMap fun
    | ⟨_, .ok (some r)⟩ => some r
    | _ => none

/-- A proposal is that for `block`, with the signature of the one proposer that signed. -/
structure Proposed (reason : Reason) (evidence : Evidence) (block : Block)
    (proposers : List Wallet) (p : Proposal) : Prop where
  reason_eq : p.reason = reason
  evidence_eq : p.evidence = evidence
  block_eq : p.block = block
  height_eq : p.height = block.height
  proposer : ∃ w, proposers = [w] ∧ w.publicKey = p.proposer ∧
    w.sign block.hash.toBytes = .ok p.signature

/-- Groups are those of the quorums that signed a proposal: one of each, in their order. -/
def Collected (quorums : List (SignerSet × List Wallet)) (p : Proposal)
    (groups : List Aggregate) : Prop :=
  List.Forall₂ (fun q g => Aggregate.collect .quorum q.1 q.2 p.encode = .ok g) quorums groups

/-- A request is made of what succeeded. -/
structure Fulfils (reason : Reason) (evidence : Evidence) (block : Block) (s : Successes)
    (r : Request) : Prop where
  proposal : Proposed reason evidence block s.proposers r.proposal
  nonempty : r.groups ≠ []
  groups : Collected s.quorums r.proposal r.groups
  requester : ∃ w, s.requesters = [w] ∧ w.publicKey = r.requester ∧
    w.sign r.digest.toBytes = .ok r.requesterSignature

/-- Each phase goes with the parts that the ceremony holds. -/
structure WellPhased (c : Ceremony) : Prop where
  built : c.phase = .built ↔ c.block.isSome ∧ c.proposal = none ∧ c.groups = []
  proposerSigned : c.phase = .proposerSigned ↔ c.block = none ∧ c.proposal.isSome ∧ c.groups = []
  quorumSigned : c.phase = .quorumSigned ↔ c.block = none ∧ c.proposal.isSome ∧ c.groups ≠ []
  ended : c.phase = .finalized ∨ c.phase = .aborted →
    c.block = none ∧ c.proposal = none ∧ c.groups = []

/-- **The invariant of a run.** -/
inductive Tracks (reason : Reason) (evidence : Evidence) (block : Block) :
    Successes → Ceremony → Prop
  | built : Tracks reason evidence block {} ⟨.built, reason, evidence, some block, none, []⟩
  | proposerSigned {ws : List Wallet} {p : Proposal}
      (hp : Proposed reason evidence block ws p) :
      Tracks reason evidence block { proposers := ws }
        ⟨.proposerSigned, reason, evidence, none, some p, []⟩
  | quorumSigned {ws : List Wallet} {qs : List (SignerSet × List Wallet)} {p : Proposal}
      {groups : List Aggregate} (hp : Proposed reason evidence block ws p) (hne : groups ≠ [])
      (hq : Collected qs p groups) :
      Tracks reason evidence block { proposers := ws, quorums := qs }
        ⟨.quorumSigned, reason, evidence, none, some p, groups⟩
  | finalized {s : Successes} {r : Request} (hs : s.requests = [r])
      (hf : Fulfils reason evidence block s r) :
      Tracks reason evidence block s ⟨.finalized, reason, evidence, none, none, []⟩
  | aborted {s : Successes} (hs : s.requests = []) :
      Tracks reason evidence block s ⟨.aborted, reason, evidence, none, none, []⟩

variable {reason : Reason} {evidence : Evidence} {block : Block}

/-! ### One call -/

theorem step_of_not_mem {c : Ceremony} {call : Call} (h : c.phase ∉ call.phases) :
    c.step call = (.error (.outOfOrder call.expected c.phase), c) := by
  cases call with
  | signProposer w =>
    have hne : c.phase ≠ .built := by simpa [Call.phases] using h
    simp only [step, signProposer]
    split
    · exact absurd ‹_› hne
    · rfl
  | signQuorum admins ws =>
    have hne : ¬ (c.phase = .proposerSigned ∨ c.phase = .quorumSigned) := by
      simpa [Call.phases] using h
    simp only [step, signQuorum, if_neg hne]
    rfl
  | finalize w =>
    have hne : c.phase ≠ .quorumSigned := by simpa [Call.phases] using h
    simp only [step, finalize]
    split
    · exact absurd ‹_› hne
    · rfl

theorem step_error {c : Ceremony} {call : Call} {e : Error} (h : (c.step call).1 = .error e) :
    (c.step call).2 = c.abort e := by
  revert h
  cases call with
  | signProposer w =>
    simp only [step, signProposer]
    split
    · cases Aggregate.ask .proposer _ w with
      | error e' =>
        rintro ⟨⟩
        rfl
      | ok p => nofun
    · rintro ⟨⟩
      rfl
  | signQuorum admins ws =>
    simp only [step, signQuorum]
    split
    · split
      · cases Aggregate.collect .quorum admins ws _ with
        | error e' =>
          rintro ⟨⟩
          rfl
        | ok g => nofun
      · rintro ⟨⟩
        rfl
    · rintro ⟨⟩
      rfl
  | finalize w =>
    simp only [step, finalize]
    split
    · cases Aggregate.ask .requester _ w with
      | error e' =>
        rintro ⟨⟩
        rfl
      | ok p => nofun
    · rintro ⟨⟩
      rfl

theorem abort_of_not_signing {c : Ceremony} {e : Error}
    (h : ∀ stage signer cause, e ≠ .signing stage signer cause) : c.abort e = c := by
  cases e with
  | signing stage signer cause => exact absurd rfl (h stage signer cause)
  | _ => rfl

/-- A call that comes in order takes its parts from the ceremony and its signatures from the wallets,
and this is what it leaves. -/
inductive Takes (c : Ceremony) : Call → Option Request → Ceremony → Prop
  | signProposer {w : Wallet} {b : Block} {signature : Signature} (hphase : c.phase = .built)
      (hb : c.block = some b) (hsign : w.sign b.hash.toBytes = .ok signature) :
      Takes c (.signProposer w) none { c with
        phase := .proposerSigned
        block := none
        proposal := some ⟨c.reason, c.evidence, b.height, b, w.publicKey, signature⟩ }
  | signQuorum {admins : SignerSet} {ws : List Wallet} {p : Proposal} {g : Aggregate}
      (hphase : c.phase = .proposerSigned ∨ c.phase = .quorumSigned) (hp : c.proposal = some p)
      (hg : Aggregate.collect .quorum admins ws p.encode = .ok g) :
      Takes c (.signQuorum admins ws) none
        { c with phase := .quorumSigned, groups := c.groups ++ [g] }
  | finalize {w : Wallet} {p : Proposal} {signature : Signature} (hphase : c.phase = .quorumSigned)
      (hp : c.proposal = some p)
      (hsign : w.sign (Petition.digest ⟨p, c.groups, w.publicKey⟩).toBytes = .ok signature) :
      Takes c (.finalize w) (some ⟨⟨p, c.groups, w.publicKey⟩, signature⟩)
        { c with phase := .finalized, proposal := none, groups := [] }

theorem step_eq_ok_iff {c c' : Ceremony} {call : Call} {a : Option Request} :
    c.step call = (.ok a, c') ↔ c.Takes call a c' := by
  constructor
  · intro h
    cases call with
    | signProposer w =>
      simp only [step, signProposer] at h
      split at h
      · rename_i b hphase hb
        split at h
        · cases h
        · rename_i key signature hask
          obtain ⟨hkey, hsign⟩ := (Aggregate.ask_eq_ok_iff _).1 hask
          obtain rfl : w.publicKey = key := hkey
          cases h
          exact .signProposer hphase hb hsign
      · cases h
    | signQuorum admins ws =>
      simp only [step, signQuorum] at h
      split at h
      · rename_i hphase
        split at h
        · rename_i p hp
          split at h
          · cases h
          · rename_i g hg
            cases h
            exact .signQuorum hphase hp hg
        · cases h
      · cases h
    | finalize w =>
      simp only [step, finalize] at h
      split at h
      · rename_i p hphase hp
        split at h
        · cases h
        · rename_i key signature hask
          obtain ⟨-, hsign⟩ := (Aggregate.ask_eq_ok_iff _).1 hask
          cases h
          exact .finalize hphase hp hsign
      · cases h
  · intro h
    cases h with
    | @signProposer w b signature hphase hb hsign =>
      have hask : Aggregate.ask .proposer b.hash.toBytes w = .ok (w.publicKey, signature) :=
        (Aggregate.ask_eq_ok_iff _).2 ⟨rfl, hsign⟩
      simp only [step, signProposer, hphase, hb, hask]
      rfl
    | @signQuorum admins ws p g hphase hp hg =>
      simp only [step, signQuorum, if_pos hphase, hp, hg]
      rfl
    | @finalize w p signature hphase hp hsign =>
      have hask : Aggregate.ask .requester (Petition.digest ⟨p, c.groups, w.publicKey⟩).toBytes w =
          .ok (w.publicKey, signature) := (Aggregate.ask_eq_ok_iff _).2 ⟨rfl, hsign⟩
      simp only [step, finalize, hphase, hp, hask]
      rfl

/-! ### A run -/

section Successes

variable (es : List Event)

theorem successes_error (call : Call) (e : Error) :
    successes (es ++ [⟨call, .error e⟩]) = successes es := by
  cases call <;> simp [successes]

theorem successes_signProposer (w : Wallet) :
    successes (es ++ [⟨.signProposer w, .ok none⟩]) =
      { successes es with proposers := (successes es).proposers ++ [w] } := by
  simp [successes]

theorem successes_signQuorum (admins : SignerSet) (ws : List Wallet) :
    successes (es ++ [⟨.signQuorum admins ws, .ok none⟩]) =
      { successes es with quorums := (successes es).quorums ++ [(admins, ws)] } := by
  simp [successes]

theorem successes_finalize (w : Wallet) (r : Request) :
    successes (es ++ [⟨.finalize w, .ok (some r)⟩]) =
      { successes es with
        requesters := (successes es).requesters ++ [w]
        requests := (successes es).requests ++ [r] } := by
  simp [successes]

end Successes

theorem call_mem_of_mem_events {c : Ceremony} {calls : List Call} {event : Event}
    (h : event ∈ c.events calls) : event.call ∈ calls := by
  induction calls generalizing c with
  | nil => cases h
  | cons call calls ih =>
    rcases List.mem_cons.1 h with rfl | h
    · exact List.mem_cons_self
    · exact List.mem_cons_of_mem _ (ih h)

theorem mem_quorums {es : List Event} {q : SignerSet × List Wallet}
    (h : q ∈ (successes es).quorums) : ∃ event ∈ es, event.call = .signQuorum q.1 q.2 := by
  obtain ⟨event, he, hq⟩ := List.mem_filterMap.1 h
  split at hq
  · obtain rfl := Option.some.inj hq
    exact ⟨_, he, rfl⟩
  · cases hq

/-- Only wallets of calls sign. -/
theorem mem_wallets {es : List Event} {w : Wallet} (h : w ∈ (successes es).wallets) :
    ∃ event ∈ es, w ∈ event.call.wallets := by
  rw [Successes.wallets, List.mem_append, List.mem_append, List.mem_flatMap] at h
  rcases h with (h | ⟨q, hq, hw⟩) | h
  · obtain ⟨event, he, hw⟩ := List.mem_filterMap.1 h
    split at hw
    · obtain rfl := Option.some.inj hw
      exact ⟨_, he, List.mem_singleton_self _⟩
    · cases hw
  · obtain ⟨event, he, hcall⟩ := mem_quorums hq
    refine ⟨event, he, ?_⟩
    rw [hcall]
    exact hw
  · obtain ⟨event, he, hw⟩ := List.mem_filterMap.1 h
    split at hw
    · obtain rfl := Option.some.inj hw
      exact ⟨_, he, List.mem_singleton_self _⟩
    · cases hw

theorem Tracks.abort {s : Successes} {c : Ceremony} (h : Tracks reason evidence block s c)
    {call : Call} (hc : c.phase ∈ call.phases) (e : Error) :
    Tracks reason evidence block s (c.abort e) := by
  by_cases he : ∀ stage signer cause, e ≠ .signing stage signer cause
  · rw [abort_of_not_signing he]
    exact h
  · push Not at he
    obtain ⟨stage, signer, cause, rfl⟩ := he
    cases h with
    | finalized hs hf => cases call <;> simp [Call.phases] at hc
    | aborted hs => exact .aborted hs
    | _ => exact .aborted rfl

theorem Tracks.step {es : List Event} {c : Ceremony}
    (h : Tracks reason evidence block (successes es) c) (call : Call) :
    Tracks reason evidence block (successes (es ++ [⟨call, (c.step call).1⟩])) (c.step call).2 := by
  by_cases hc : c.phase ∈ call.phases
  swap
  · rw [step_of_not_mem hc, successes_error]
    exact h
  cases hx : (c.step call).1 with
  | error e =>
    rw [successes_error, step_error hx]
    exact h.abort hc e
  | ok a =>
    have htakes : c.Takes call a (c.step call).2 := step_eq_ok_iff.1 (Prod.ext hx rfl)
    generalize (c.step call).2 = c' at htakes ⊢
    cases htakes with
    | signProposer hphase hb hsign =>
      rw [successes_signProposer]
      generalize successes es = s at h ⊢
      cases h with
      | built =>
        obtain rfl := Option.some.inj hb
        exact .proposerSigned ⟨rfl, rfl, rfl, rfl, _, rfl, rfl, hsign⟩
      | _ => simp at hphase
    | signQuorum hphase hp hg =>
      rw [successes_signQuorum]
      generalize successes es = s at h ⊢
      cases h with
      | proposerSigned hprop =>
        obtain rfl := Option.some.inj hp
        exact .quorumSigned hprop (by simp) (.cons hg .nil)
      | quorumSigned hprop hne hq =>
        obtain rfl := Option.some.inj hp
        exact .quorumSigned hprop (by simp) (List.rel_append hq (.cons hg .nil))
      | _ => simp at hphase
    | finalize hphase hp hsign =>
      rw [successes_finalize]
      generalize successes es = s at h ⊢
      cases h with
      | quorumSigned hprop hne hq =>
        obtain rfl := Option.some.inj hp
        exact .finalized rfl ⟨hprop, hne, hq, _, rfl, rfl, hsign⟩
      | _ => simp at hphase

theorem tracks_after (reason : Reason) (evidence : Evidence) (block : Block) (calls : List Call) :
    Tracks reason evidence block (successes ((new reason evidence block).events calls))
      ((new reason evidence block).after calls) := by
  -- with the events of an earlier run in front, for the induction on the calls
  have key : ∀ (calls : List Call) (es : List Event) (c : Ceremony),
      Tracks reason evidence block (successes es) c →
      Tracks reason evidence block (successes (es ++ c.events calls)) (c.after calls) := by
    intro calls
    induction calls with
    | nil =>
      intro es c h
      rw [events, List.append_nil]
      exact h
    | cons call calls ih =>
      intro es c h
      have h' := ih (es ++ [⟨call, (c.step call).1⟩]) (c.step call).2 (h.step call)
      rwa [List.append_assoc] at h'
  exact key calls [] _ .built

/-! ### What a run guarantees -/

theorem Tracks.wellPhased {s : Successes} {c : Ceremony} (h : Tracks reason evidence block s c) :
    c.WellPhased := by
  cases h with
  | quorumSigned hp hne hq => constructor <;> simp [hne]
  | _ => constructor <;> simp

/-- A call that comes in order never fails as one out of order: the parts that it takes are there. -/
theorem Tracks.step_ne_outOfOrder {s : Successes} {c : Ceremony}
    (h : Tracks reason evidence block s c) {call : Call} (hc : c.phase ∈ call.phases)
    (expected found : Phase) : (c.step call).1 ≠ .error (.outOfOrder expected found) := by
  intro hx
  cases call with
  | signProposer w =>
    cases h with
    | built =>
      simp only [Ceremony.step, signProposer] at hx
      split at hx
      · rename_i ha
        obtain rfl := Except.error.inj hx
        exact Aggregate.ask_ne_outOfOrder ha
      · cases hx
    | _ => simp [Call.phases] at hc
  | signQuorum admins ws =>
    have hphase : c.phase = .proposerSigned ∨ c.phase = .quorumSigned := by
      simpa [Call.phases] using hc
    obtain ⟨p, hp⟩ : ∃ p, c.proposal = some p := by
      cases h with
      | proposerSigned => exact ⟨_, rfl⟩
      | quorumSigned => exact ⟨_, rfl⟩
      | _ => simp at hphase
    simp only [Ceremony.step, signQuorum, if_pos hphase, hp] at hx
    split at hx
    · rename_i hg
      obtain rfl := Except.error.inj hx
      exact Aggregate.collect_ne_outOfOrder hg
    · cases hx
  | finalize w =>
    cases h with
    | quorumSigned =>
      simp only [Ceremony.step, finalize] at hx
      split at hx
      · rename_i ha
        obtain rfl := Except.error.inj hx
        exact Aggregate.ask_ne_outOfOrder ha
      · cases hx
    | _ => simp [Call.phases] at hc

theorem Tracks.step_eq_outOfOrder_iff {s : Successes} {c : Ceremony}
    (h : Tracks reason evidence block s c) {call : Call} {expected found : Phase} :
    (c.step call).1 = .error (.outOfOrder expected found) ↔
      c.phase ∉ call.phases ∧ expected = call.expected ∧ found = c.phase := by
  by_cases hc : c.phase ∈ call.phases
  · simp [hc, h.step_ne_outOfOrder hc]
  · rw [step_of_not_mem hc]
    simp [hc, eq_comm]

theorem events_of_aborted {c : Ceremony} (h : c.phase = .aborted) (calls : List Call) :
    ∀ event ∈ c.events calls,
      event.answer = .error (.outOfOrder event.call.expected .aborted) := by
  induction calls with
  | nil =>
    intro event he
    cases he
  | cons call calls ih =>
    have hc : c.phase ∉ call.phases := by
      rw [h]
      cases call <;> simp [Call.phases]
    rw [events, List.forall_mem_cons, step_of_not_mem hc, h]
    exact ⟨rfl, ih⟩

theorem Tracks.requests_cases {s : Successes} {c : Ceremony}
    (h : Tracks reason evidence block s c) :
    s.requests = [] ∨ ∃ r, s.requests = [r] ∧ Fulfils reason evidence block s r := by
  cases h with
  | finalized hs hf => exact .inr ⟨_, hs, hf⟩
  | aborted hs => exact .inl hs
  | _ => exact .inl rfl

theorem fulfils_of_mem_requests {calls : List Call} {r : Request}
    (hr : r ∈ (successes ((new reason evidence block).events calls)).requests) :
    Fulfils reason evidence block (successes ((new reason evidence block).events calls)) r := by
  rcases (tracks_after reason evidence block calls).requests_cases with hs | ⟨r', hs, hf⟩
  · rw [hs] at hr
    cases hr
  · rw [hs] at hr
    obtain rfl := List.mem_singleton.1 hr
    exact hf

/-- **What a ceremony guarantees.** After any calls, the parts that are held come from the calls that
succeeded, and the phase goes with them; a call succeeds exactly if it comes in order and its wallets
sign what they are given, and then passes on to the next phase; a call fails as out of order exactly if
its phase is not the present one; any failure but that of a wallet to sign leaves the ceremony as it
was, and that one ends it for good; and at most one request is handed out, made of what succeeded. -/
theorem ceremony_exact (reason : Reason) (evidence : Evidence) (block : Block)
    (calls : List Call) :
    let c := (new reason evidence block).after calls
    let s := successes ((new reason evidence block).events calls)
    Tracks reason evidence block s c ∧ c.WellPhased ∧
    (∀ call a c', c.step call = (.ok a, c') ↔ c.Takes call a c') ∧
    (∀ call expected found, (c.step call).1 = .error (.outOfOrder expected found) ↔
      c.phase ∉ call.phases ∧ expected = call.expected ∧ found = c.phase) ∧
    (∀ call e, (c.step call).1 = .error e → (∀ stage signer cause, e ≠ .signing stage signer cause) →
      (c.step call).2 = c) ∧
    (∀ call stage signer cause, (c.step call).1 = .error (.signing stage signer cause) →
      (c.step call).2.phase = .aborted ∧ ∀ later, ∀ event ∈ (c.step call).2.events later,
        event.answer = .error (.outOfOrder event.call.expected .aborted)) ∧
    s.requests.length ≤ 1 ∧ ∀ r ∈ s.requests, Fulfils reason evidence block s r := by
  intro c s
  have h : Tracks reason evidence block s c := tracks_after reason evidence block calls
  refine ⟨h, h.wellPhased, fun _ _ _ => step_eq_ok_iff, fun _ _ _ => h.step_eq_outOfOrder_iff, ?_, ?_,
    ?_, fun _ hr => fulfils_of_mem_requests hr⟩
  · intro call e hx he
    rw [step_error hx, abort_of_not_signing he]
  · intro call stage signer cause hx
    have hphase : (c.step call).2.phase = .aborted := by rw [step_error hx]; rfl
    exact ⟨hphase, events_of_aborted hphase⟩
  · rcases h.requests_cases with hs | ⟨r, hs, -⟩ <;> simp [hs]

/-- Two quorums of one sign, the first call comes too early, and a request is handed out in the end; or
the requester refuses, and the ceremony ends without one. -/
theorem ceremony_exact_sample :
    let w : Wallet := ⟨.neutral, fun _ => .ok ⟨.zero 64⟩⟩
    let locked : Wallet := ⟨.neutral, fun _ => .error (.signingFailed "locked")⟩
    let quorum : Call := .signQuorum (.single .neutral) [w]
    let start := new .blacklist .equivocation (.genesis 0)
    let c := start.after [.finalize w, .signProposer w, quorum, quorum]
    let s := successes (start.events [.finalize w, .signProposer w, quorum, quorum, .finalize w])
    (∃ r, c.Takes (.finalize w) (some r) (c.step (.finalize w)).2 ∧ s.requests = [r] ∧
        Fulfils .blacklist .equivocation (.genesis 0) s r ∧ r.groups.length = 2) ∧
      (c.step (.finalize locked)).1 =
        .error (.signing .requester .neutral (.signingFailed "locked")) ∧
      (c.step (.finalize locked)).2.phase = .aborted := by
  intro w locked quorum start c s
  obtain ⟨-, -, hsuccess, -, -, hrefusal, -⟩ := ceremony_exact .blacklist .equivocation (.genesis 0)
    [.finalize w, .signProposer w, quorum, quorum]
  obtain ⟨-, -, -, -, -, -, -, hfulfils⟩ := ceremony_exact .blacklist .equivocation (.genesis 0)
    [.finalize w, .signProposer w, quorum, quorum, .finalize w]
  obtain ⟨r, hr, hrequests⟩ : ∃ r, (c.step (.finalize w)).1 = .ok (some r) ∧ s.requests = [r] :=
    ⟨_, rfl, rfl⟩
  have hlocked : (c.step (.finalize locked)).1 =
      .error (.signing .requester .neutral (.signingFailed "locked")) := rfl
  have hfulfils' := hfulfils r (hrequests ▸ List.mem_singleton_self r)
  refine ⟨⟨r, (hsuccess _ _ _).1 (Prod.ext hr rfl), hrequests, hfulfils', ?_⟩, hlocked,
    (hrefusal _ _ _ _ hlocked).1⟩
  exact hfulfils'.groups.length_eq.symm.trans rfl

end Ceremony

end ChainGovernance.Emergency
