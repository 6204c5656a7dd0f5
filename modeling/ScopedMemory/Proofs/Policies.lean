import Mathlib.Data.List.Nodup
import ScopedMemory.Program.Run

/-! Native access while the policy changes.

Calls set the policy and ask for tokens, in any order. What a request meets is the policy that was
set last before it (`AccessCall.inForce`). The session remembers who has been warned about, and a
request is entered there under `warn` alone (`State.mem_warned_serve`). So the log warns about a
caller once, at the first request under `warn`, whatever the caller was granted or refused before.
-/
namespace ScopedMemory

/-- A call about native access, on a thread: a policy is to be in force from now on, or a caller
asks for a token, which may get a name. -/
inductive AccessCall where
  | setPolicy (thread : Thread) (text : String)
  | enable (thread : Thread) (caller : String) (name : Option String)

namespace AccessCall

/-- The step of a program that makes the call. -/
def step : AccessCall → Step
  | .setPolicy thread text => ⟨thread, .setPolicy text⟩
  | .enable thread caller name => ⟨thread, .enableAccess caller name⟩

/-- The policy that the call puts in force. A text that names none puts none in force. -/
def policy? : AccessCall → Option Policy
  | .setPolicy _ text => (Policy.parse text).toOption
  | .enable .. => none

/-- Who asks for a token. -/
def caller? : AccessCall → Option String
  | .setPolicy .. => none
  | .enable _ caller _ => some caller

/-- The policy in force after calls: the last that was put in force, or else the one at the start.
-/
def inForce (start : Policy) (calls : List AccessCall) : Policy :=
  (calls.filterMap policy?).getLast?.getD start

/-- One of the calls is a request of the caller, and meets that policy. -/
def AsksUnder (start : Policy) (calls : List AccessCall) (caller : String) (policy : Policy) : Prop :=
  ∃ before call after, calls = before ++ call :: after ∧ call.caller? = some caller ∧
    inForce start before = policy

/-- The caller is warned about when it asks after these calls: for the first time under `warn`. -/
def WarnedNow (start : Policy) (before : List AccessCall) (caller : String) : Prop :=
  inForce start before = .warn ∧ ¬ AsksUnder start before caller .warn

/-- The reply to a request of the caller after other calls. -/
structure Answered (start : Policy) (before : List AccessCall) (caller : String) (reply : Reply) :
    Prop where
  granted : reply.outcome = .ok (.token ⟨caller⟩) ↔ inForce start before ≠ .deny
  refused : reply.outcome = .error (.access (.illegalNativeAccess caller)) ↔
    inForce start before = .deny
  logged : reply.events = [.logged (.accessEnabled caller)] ↔ WarnedNow start before caller
  silent : reply.events = [] ↔ ¬ WarnedNow start before caller

section
variable {start policy : Policy} {call : AccessCall} {rest : List AccessCall} {caller : String}

@[simp] theorem inForce_nil (start : Policy) : inForce start [] = start := rfl

theorem inForce_cons (start : Policy) (call : AccessCall) (rest : List AccessCall) :
    inForce start (call :: rest) = inForce (call.policy?.getD start) rest := by
  cases h : call.policy? with
  | none => simp [inForce, h]
  | some policy =>
    simp only [inForce, List.filterMap_cons, h, List.getLast?_cons, Option.getD_some]

/-- Every policy can be put in force, by its name. -/
theorem policy?_name (thread : Thread) (policy : Policy) :
    (setPolicy thread policy.name).policy? = some policy := by
  have hparse : Policy.parse policy.name = .ok policy := by
    cases policy <;> decide +kernel
  rw [policy?, hparse]
  rfl

@[simp] theorem policy?_enable (thread : Thread) (caller : String) (name : Option String) :
    (enable thread caller name).policy? = none := rfl

@[simp] theorem not_asksUnder_nil : ¬ AsksUnder start [] caller policy := by
  simp [AsksUnder]

/-- The first call asks under the policy at the start, and the others under the policy after it. -/
theorem asksUnder_cons : AsksUnder start (call :: rest) caller policy ↔
    (call.caller? = some caller ∧ start = policy) ∨
      AsksUnder (call.policy?.getD start) rest caller policy := by
  constructor
  · rintro ⟨before, asking, after, hcalls, hcaller, hforce⟩
    cases before with
    | nil =>
      rw [List.nil_append, List.cons.injEq] at hcalls
      exact .inl ⟨hcalls.1 ▸ hcaller, hforce⟩
    | cons first before =>
      rw [List.cons_append, List.cons.injEq] at hcalls
      rw [← hcalls.1, inForce_cons] at hforce
      exact .inr ⟨before, asking, after, hcalls.2, hcaller, hforce⟩
  · rintro (⟨hcaller, hstart⟩ | ⟨before, asking, after, rfl, hcaller, hforce⟩)
    · exact ⟨[], call, rest, rfl, hcaller, hstart⟩
    · refine ⟨call :: before, asking, after, rfl, hcaller, ?_⟩
      rw [inForce_cons, hforce]

end

end AccessCall

/-- The caller that a log entry warns about. -/
def Event.warned? : Event → Option String
  | .logged (.accessEnabled caller) => some caller
  | _ => none

/-- The callers that the log warns about, in order. -/
def warnings (replies : List Reply) : List String :=
  replies.flatMap fun reply => reply.events.filterMap Event.warned?

namespace State
variable {s : State} {limit : Nat} {call : AccessCall} {calls rest : List AccessCall} {caller : String}

/-- The replies to calls that come one after the other, and the state after them. -/
def serve (s : State) (limit : Nat) (calls : List AccessCall) : List Reply × State :=
  s.run limit (calls.map fun call => some call.step)

/-! ### One call -/

/-- The callers that the log is going to warn about: the one who asks, or none. -/
def alerts (s : State) (call : AccessCall) : List String :=
  call.caller?.toList.filter fun caller => s.policy = .warn ∧ caller ∉ s.warned

/-- The state in which a request has been granted. -/
def granted (s : State) (caller : String) : State :=
  if s.policy = .warn ∧ caller ∉ s.warned then
    { s with warned := caller :: s.warned }.log (.accessEnabled caller)
  else s

theorem enableAccess_eq (s : State) (caller : String) :
    s.enableAccess caller =
      if s.policy = .deny then .error (.illegalNativeAccess caller)
      else .ok (⟨caller⟩, s.granted caller) := by
  cases h : s.policy with
  | allow => simp [enableAccess, granted, h]
  | warn =>
    simp only [enableAccess, granted, h]
    by_cases hwarned : caller ∈ s.warned <;> simp [hwarned]
  | deny => simp [enableAccess, h]

theorem step_setPolicy (s : State) (limit : Nat) (thread : Thread) (text : String) :
    s.step limit (some ⟨thread, .setPolicy text⟩) =
      (⟨(allocating (Policy.parse text)).map fun _ => .nothing, []⟩,
        { s with events := [], policy := (Policy.parse text).toOption.getD s.policy }) := by
  cases h : Policy.parse text <;>
    simp [step, Operation.perform, orElseSame, allocating, h, Except.mapError, Except.toOption,
      Except.map, bind, Except.bind, pure, Except.pure]

theorem step_enable (s : State) (limit : Nat) (thread : Thread) (caller : String)
    (name : Option String) :
    s.step limit (some ⟨thread, .enableAccess caller name⟩) =
      if s.policy = .deny then
        (⟨.error (.access (.illegalNativeAccess caller)), []⟩, { s with events := [] })
      else
        (⟨.ok (.token ⟨caller⟩), ({ s with events := [] }.granted caller).events⟩,
          ({ s with events := [] }.granted caller).bindToken name ⟨caller⟩) := by
  simp only [step, Operation.perform, enableAccess_eq]
  split
  · rfl
  · cases name <;> rfl

/-- Only under `warn` does a granted request leave a trace. -/
theorem granted_fields (s : State) (thread : Thread) (caller : String) (name : Option String) :
    (s.granted caller).events =
      s.events ++ (s.alerts (.enable thread caller name)).map (.logged ∘ .accessEnabled) ∧
    (s.granted caller).policy = s.policy ∧
    (s.granted caller).warned = s.alerts (.enable thread caller name) ++ s.warned ∧
    (s.granted caller).aborted = s.aborted := by
  unfold granted alerts
  split <;> simp_all [AccessCall.caller?, log, emit]

/-- **All that a call does** to the log, the policy and the list of who was warned about. -/
theorem step_call (s : State) (limit : Nat) (call : AccessCall) :
    (s.step limit (some call.step)).1.events = (s.alerts call).map (.logged ∘ .accessEnabled) ∧
    (s.step limit (some call.step)).2.policy = call.policy?.getD s.policy ∧
    (s.step limit (some call.step)).2.warned = s.alerts call ++ s.warned ∧
    (s.step limit (some call.step)).2.aborted = s.aborted := by
  cases call with
  | setPolicy thread text =>
    simp [AccessCall.step, step_setPolicy, alerts, AccessCall.caller?, AccessCall.policy?]
  | enable thread caller name =>
    rw [AccessCall.step, step_enable]
    split
    · rename_i hdeny
      simp [alerts, hdeny]
    · have hfields := granted_fields { s with events := [] } thread caller name
      cases name <;> exact hfields

theorem mem_alerts : caller ∈ s.alerts call ↔
    call.caller? = some caller ∧ s.policy = .warn ∧ caller ∉ s.warned := by
  simp [alerts, Option.mem_toList]

theorem nodup_alerts (h : s.warned.Nodup) : (s.alerts call ++ s.warned).Nodup := by
  refine List.nodup_append.mpr ⟨List.Pairwise.filter _ ?_, h, ?_⟩
  · cases call.caller? <;> simp
  · rintro caller halerts _ hwarned rfl
    exact (mem_alerts.mp halerts).2.2 hwarned

/-- The log of one call warns about those whom the call adds to the list. -/
theorem warned?_events (s : State) (limit : Nat) (call : AccessCall) :
    (s.step limit (some call.step)).1.events.filterMap Event.warned? = s.alerts call := by
  have hback : Event.warned? ∘ (.logged ∘ .accessEnabled) = some := rfl
  rw [(step_call s limit call).1, List.filterMap_map, hback, List.filterMap_some]

/-! ### Runs -/

section
variable (going : s.aborted = false)
include going

theorem serve_cons (limit : Nat) (call : AccessCall) (rest : List AccessCall) :
    s.serve limit (call :: rest) =
      ((s.step limit (some call.step)).1 ::
          ((s.step limit (some call.step)).2.serve limit rest).1,
        ((s.step limit (some call.step)).2.serve limit rest).2) := by
  have hgoing : ¬ (s.step limit (some call.step)).2.aborted = true := by
    rw [(step_call s limit call).2.2.2, going]
    exact Bool.false_ne_true
  rw [serve, List.map_cons, run]
  dsimp only
  rw [if_neg hgoing]
  rfl

theorem length_serve (limit : Nat) (calls : List AccessCall) :
    (s.serve limit calls).1.length = calls.length := by
  induction calls generalizing s with
  | nil => rfl
  | cons call rest ih =>
    rw [serve_cons going, List.length_cons, List.length_cons, ih]
    rw [(step_call s limit call).2.2.2, going]

/-- After a run, the policy is the one that was set last. -/
theorem policy_serve (limit : Nat) (calls : List AccessCall) :
    (s.serve limit calls).2.policy = AccessCall.inForce s.policy calls := by
  induction calls generalizing s with
  | nil => rfl
  | cons call rest ih =>
    have hcall := step_call s limit call
    rw [serve_cons going, ih (hcall.2.2.2.trans going), hcall.2.1, AccessCall.inForce_cons]

/-- After a run, those have been warned about who asked under `warn`, and no others. -/
theorem mem_warned_serve (limit : Nat) (calls : List AccessCall) (caller : String) :
    caller ∈ (s.serve limit calls).2.warned ↔
      caller ∈ s.warned ∨ AccessCall.AsksUnder s.policy calls caller .warn := by
  induction calls generalizing s with
  | nil =>
    rw [or_iff_left AccessCall.not_asksUnder_nil]
    rfl
  | cons call rest ih =>
    have hcall := step_call s limit call
    rw [serve_cons going, ih (hcall.2.2.2.trans going), hcall.2.1, hcall.2.2.1, List.mem_append,
      mem_alerts, AccessCall.asksUnder_cons]
    tauto

/-- The log of a run warns about those whom the run adds to the list. -/
theorem warned_serve (limit : Nat) (calls : List AccessCall) :
    (s.serve limit calls).2.warned.Perm (warnings (s.serve limit calls).1 ++ s.warned) := by
  induction calls generalizing s with
  | nil => exact .refl _
  | cons call rest ih =>
    have hcall := step_call s limit call
    have hrest := ih (hcall.2.2.2.trans going)
    rw [hcall.2.2.1] at hrest
    rw [serve_cons going, warnings, List.flatMap_cons, warned?_events, ← warnings]
    refine hrest.trans ?_
    rw [← List.append_assoc]
    exact List.perm_append_comm.append_right _

theorem nodup_warned_serve (h : s.warned.Nodup) (limit : Nat) (calls : List AccessCall) :
    (s.serve limit calls).2.warned.Nodup := by
  induction calls generalizing s with
  | nil => exact h
  | cons call rest ih =>
    have hcall := step_call s limit call
    rw [serve_cons going]
    apply ih (hcall.2.2.2.trans going)
    rw [hcall.2.2.1]
    exact nodup_alerts h

/-- What a call is answered after others is what it is answered in the state after them. -/
theorem serve_reply (limit : Nat) (before : List AccessCall) (call : AccessCall)
    (after : List AccessCall) :
    (s.serve limit (before ++ call :: after)).1[before.length]? =
      some ((s.serve limit before).2.step limit (some call.step)).1 := by
  induction before generalizing s with
  | nil =>
    rw [List.nil_append, serve_cons going]
    rfl
  | cons first before ih =>
    have hfirst := step_call s limit first
    rw [List.cons_append, serve_cons going, List.length_cons, List.getElem?_cons_succ,
      ih (hfirst.2.2.2.trans going), serve_cons going]

end

/-- A request is answered by the policy of the state, and logged if its caller is not in the list.
-/
theorem step_answered {before : List AccessCall} {start : Policy}
    (policy : s.policy = AccessCall.inForce start before)
    (warned : caller ∈ s.warned ↔ AccessCall.AsksUnder start before caller .warn) (limit : Nat)
    (asks : call.caller? = some caller) :
    AccessCall.Answered start before caller (s.step limit (some call.step)).1 := by
  have hevents := (step_call s limit call).1
  have hnow : AccessCall.WarnedNow start before caller ↔ s.policy = .warn ∧ caller ∉ s.warned := by
    rw [AccessCall.WarnedNow, policy, warned]
  have halerts : s.alerts call = [caller].filter fun caller => s.policy = .warn ∧ caller ∉ s.warned := by
    rw [alerts, asks]
    rfl
  cases call with
  | setPolicy thread text => cases asks
  | enable thread other name =>
    obtain rfl := Option.some.inj asks
    constructor
    · rw [← policy, AccessCall.step, step_enable]
      split <;> (rename_i hdeny; simp [hdeny])
    · rw [← policy, AccessCall.step, step_enable]
      split <;> (rename_i hdeny; simp [hdeny])
    · rw [hevents, halerts, hnow]
      by_cases h : s.policy = .warn ∧ other ∉ s.warned <;> simp [h]
    · rw [hevents, halerts, hnow]
      by_cases h : s.policy = .warn ∧ other ∉ s.warned <;> simp [h]

/-- **Native access follows the policy** in force. A caller is granted a token unless that is
`deny`, and is then refused by name. A request is logged exactly if it is the first of its caller
under `warn`, so there is at most one warning about a caller. -/
theorem access_follows_policy (fresh : s.warned = []) (going : s.aborted = false) (limit : Nat)
    (calls : List AccessCall) :
    (s.serve limit calls).1.length = calls.length ∧
    (∀ before call after, calls = before ++ call :: after →
      ∃ reply, (s.serve limit calls).1[before.length]? = some reply ∧
        (∀ caller, call.caller? = some caller → AccessCall.Answered s.policy before caller reply) ∧
        (call.caller? = none → reply.events = [])) ∧
    ∀ caller, (warnings (s.serve limit calls).1).count caller ≤ 1 ∧
      ((warnings (s.serve limit calls).1).count caller = 1 ↔
        AccessCall.AsksUnder s.policy calls caller .warn) := by
  refine ⟨length_serve going limit calls, ?_, ?_⟩
  · rintro before call after rfl
    refine ⟨_, serve_reply going limit before call after, ?_, ?_⟩
    · intro caller hasks
      apply step_answered (policy_serve going limit before) ?_ limit hasks
      rw [mem_warned_serve going, fresh, or_iff_right List.not_mem_nil]
    · intro hquiet
      rw [(step_call _ limit call).1, alerts, hquiet]
      rfl
  · intro caller
    have hperm := warned_serve going limit calls
    have hnodup := nodup_warned_serve going (fresh ▸ List.nodup_nil) limit calls
    have hmem := mem_warned_serve going limit calls caller
    rw [fresh, List.append_nil] at hperm
    rw [fresh, or_iff_right List.not_mem_nil, hperm.mem_iff] at hmem
    have hle := List.nodup_iff_count_le_one.mp (hperm.nodup_iff.mp hnodup) caller
    rw [← hmem, ← List.count_pos_iff]
    omega

/-- A caller that was refused, and then granted a token silently, is still warned about at its first
request under `warn`. -/
theorem access_follows_policy_switching :
    let s := initial .bump
    let before : List AccessCall := [.setPolicy 0 Policy.deny.name, .enable 1 "codec" none,
      .setPolicy 0 Policy.allow.name, .enable 2 "codec" (some "token"), .setPolicy 1 Policy.warn.name]
    let calls := before ++ [.enable 1 "codec" none, .enable 0 "codec" none]
    s.warned = [] ∧ s.aborted = false ∧ (warnings (s.serve 0 calls).1).count "codec" = 1 ∧
    ∃ reply, (s.serve 0 calls).1[5]? = some reply ∧ reply.outcome = .ok (.token ⟨"codec"⟩) ∧
      reply.events = [.logged (.accessEnabled "codec")] := by
  intro s before calls
  have hforce : AccessCall.inForce s.policy before = .warn := by
    simp [before, AccessCall.inForce_cons, AccessCall.policy?_name]
  have hfirst : ¬ AccessCall.AsksUnder s.policy before "codec" .warn := by
    simp [before, AccessCall.asksUnder_cons, AccessCall.policy?_name, AccessCall.caller?]
  have hfollows := access_follows_policy (s := s) rfl rfl 0 calls
  obtain ⟨reply, hreply, hanswered, -⟩ := hfollows.2.1 before _ _ rfl
  have hcodec := hanswered "codec" rfl
  refine ⟨rfl, rfl, (hfollows.2.2 "codec").2.mpr ⟨before, _, _, rfl, rfl, hforce⟩, reply, hreply,
    hcodec.granted.mpr ?_, hcodec.logged.mpr ⟨hforce, hfirst⟩⟩
  rw [hforce]
  decide

end State

end ScopedMemory
