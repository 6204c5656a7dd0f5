import ScopedMemory.Proofs.CloseGraph

/-! Closes within closes.

A close whose cleanups close other arenas, and allocate from them, comes to an end because each
close leaves one scope less alive, and to the same end however deep callbacks may nest beyond that
(`work_copes`). What has ended by then is what is reached in the graph of closes, no more and no
less. -/
namespace ScopedMemory

/-- What is said of an allocation from an arena whose scope is not alive. -/
def Arena.refusal (arena : Arena) (size alignment : Word) : ArenaError :=
  match Alignment.ofBytes? alignment with
  | none => .invalidAlignment alignment
  | some _ =>
    if arena.config.maxAllocation < size then
      .capacityExceeded size arena.config.maxAllocation
    else .access .scopeNotAlive

namespace State

/-! ### Closing, to the end -/

/-- What the cleanups of scopes that are reached do: they allocate, and close what is in the family,
and is reached if a close would go through. -/
def Docile (s : State) (t : Thread) (first : ScopeId) (members : List ScopeId) :
    Action ArenaId Segment → Prop
  | .close i => ∀ arena, s.arena? i = some arena → arena.scope ∈ members ∧
      (s.mayClose t arena.scope = true → s.Cascades t first arena.scope)
  | .alloc .. => True
  | _ => False

/-- The scopes exist, and the cleanups of those that are reached are docile. -/
structure Charted (s : State) (t : Thread) (first : ScopeId) (members : List ScopeId) : Prop where
  known : ∀ id ∈ members, id < s.scopes.size
  docile : ∀ id ∈ members, s.Cascades t first id → ∀ cleanup ∈ (s.scope id).cleanups,
    ∀ action ∈ cleanup.script, Docile s t first members action

/-- All that the script was to close is closed. -/
def Exhausted (s : State) (t : Thread) (now : State) (script : Script) : Prop :=
  ∀ i arena, .close i ∈ script → s.arena? i = some arena → s.Spent t now arena.scope

/-- Two ways of doing what callbacks leave to be done cope with docile scripts, and come to the same
end, as long as no more than `n` scopes of the family are alive. -/
structure Copes (s : State) (t : Thread) (first : ScopeId) (members : List ScopeId)
    (nested other : Nested) (n : Nat) : Prop where
  script : ∀ {now : State} {script : Script}, Amid s t first now → now.living members ≤ n →
    (∀ action ∈ script, Docile s t first members action) → ∃ now',
      nested (.script script) now = (none, now') ∧ other (.script script) now = (none, now') ∧
      Onward s t first now now' ∧ s.Exhausted t now' script
  release : ∀ {now : State}, Amid s t first now →
    nested (.release []) now = (none, now) ∧ other (.release []) now = (none, now)

section
variable {s now now' : State} {t : Thread} {first id : ScopeId} {members : List ScopeId}
  {nested other : Nested} {n : Nat}

/-- What has been closed is not alive again. -/
theorem Charted.living_le (hm : Charted s t first members) (ho : Onward s t first now now') :
    now'.living members ≤ now.living members :=
  State.living_le fun id hid => ho.dead id (hm.known id hid)

theorem Exhausted.later {script : Script} (h : s.Exhausted t now script)
    (ho : Onward s t first now now') : s.Exhausted t now' script := fun i arena hclose hfound =>
  (h i arena hclose hfound).later ho

/-- Docile actions keep no segments. -/
theorem segments_of_docile {script : Script}
    (docile : ∀ action ∈ script, Docile s t first members action) : script.segments = [] := by
  refine List.filterMap_eq_nil_iff.mpr fun action haction => ?_
  have h := docile action haction
  cases action with
  | close _ | alloc _ _ _ => rfl
  | load _ | get _ _ | panic _ | perform _ => cases h

/-- **One cleanup** of a scope that has ended. -/
theorem runCleanup_onward (hm : Charted s t first members)
    (hc : Copes s t first members nested other n) (amid : Amid s t first now)
    (hliving : now.living members ≤ n) (hid : id < s.scopes.size) (dead : now.isAlive id = false)
    {cleanup : Cleanup} (docile : ∀ action ∈ cleanup.script, Docile s t first members action) :
    ∃ now',
      now.runCleanup nested t id cleanup = (none, now') ∧
      now.runCleanup other t id cleanup = (none, now') ∧
      Onward s t first now now' ∧ s.Exhausted t now' cleanup.script := by
  have hbegun := steady_beginCleanup dead (Nat.lt_of_lt_of_le hid amid.size_le) t cleanup
  have hsegments := segments_of_docile docile
  unfold runCleanup
  dsimp only
  rw [hsegments]
  generalize now.beginCleanup t id cleanup = b at hbegun
  have hopening := Onward.of_steady amid hbegun
  have hliving' : b.living members ≤ n :=
    Nat.le_trans (hm.living_le hopening) hliving
  obtain ⟨now₁, hscript, hscript', hran, hdone⟩ := hc.script hopening.amid hliving' docile
  have hreset : Steady now₁ { now₁ with outgoing := b.outgoing } := .of_eq rfl rfl rfl rfl
  obtain ⟨hrelease, hrelease'⟩ := hc.release (hran.amid.steady hreset)
  have hover : Onward s t first now₁
      (({ now₁ with outgoing := b.outgoing } : State).record id (.done cleanup)) :=
    .of_steady hran.amid (hreset.trans (.of_eq rfl rfl rfl rfl))
  refine ⟨({ now₁ with outgoing := b.outgoing } : State).record id (.done cleanup), ?_, ?_,
    (hopening.trans hran).trans hover, hdone.later hover⟩
  · rw [show ({ b with outgoing := [] ++ b.outgoing } : State) = b from rfl, hscript]
    dsimp only
    rw [hrelease]
  · rw [show ({ b with outgoing := [] ++ b.outgoing } : State) = b from rfl, hscript']
    dsimp only
    rw [hrelease']

/-- **All cleanups** of a scope that has ended. -/
theorem runCleanups_onward (hm : Charted s t first members)
    (hc : Copes s t first members nested other n) (hid : id < s.scopes.size)
    {cleanups : List Cleanup} (amid : Amid s t first now) (hliving : now.living members ≤ n)
    (dead : now.isAlive id = false)
    (docile : ∀ cleanup ∈ cleanups, ∀ action ∈ cleanup.script, Docile s t first members action) :
    ∃ now', now.runCleanups nested t id cleanups = (none, now') ∧
      now.runCleanups other t id cleanups = (none, now') ∧ Onward s t first now now' ∧
      ∀ cleanup ∈ cleanups, s.Exhausted t now' cleanup.script := by
  induction cleanups generalizing now with
  | nil => exact ⟨now, rfl, rfl, .refl amid, nofun⟩
  | cons cleanup rest ih =>
    obtain ⟨now₁, hfirst, hfirst', hran, hdone⟩ := runCleanup_onward hm hc amid hliving hid dead
      (docile cleanup List.mem_cons_self)
    have hliving₁ : now₁.living members ≤ n :=
      Nat.le_trans (hm.living_le hran) hliving
    obtain ⟨now', hrest, hrest', hran', hdone'⟩ := ih hran.amid hliving₁ (hran.dead id hid dead)
      fun cleanup h => docile cleanup (List.mem_cons_of_mem _ h)
    refine ⟨now', ?_, ?_, hran.trans hran', fun c hmem => ?_⟩
    · simp only [runCleanups, hfirst, Option.isSome_none, Bool.false_eq_true, if_false, hrest,
        Option.or_none]
    · simp only [runCleanups, hfirst', Option.isSome_none, Bool.false_eq_true, if_false, hrest',
        Option.or_none]
    · rcases List.mem_cons.mp hmem with rfl | hmem
      · exact hdone.later hran'
      · exact hdone' c hmem

/-- **A close that goes through** comes to its end, with nothing left to be closed behind it. -/
theorem finish_onward (hm : Charted s t first members)
    (hc : Copes s t first members nested other n) (amid : Amid s t first now)
    (hliving : now.living members ≤ n + 1) (hmember : id ∈ members)
    (reached : s.Cascades t first id) (alive : now.isAlive id = true) :
    ∃ now', now.finish nested t id (some t) = (none, now') ∧
      now.finish other t id (some t) = (none, now') ∧ Onward s t first now now' ∧
      now'.isAlive id = false := by
  have hid := hm.known id hmember
  have hended := amid.endScope reached (some t)
  have hdead := isAlive_endScope now id (some t)
  have hdying : ∀ other, now.isAlive other = false →
      (now.endScope id (some t)).isAlive other = false := by
    intro other hother
    rw [Bool.eq_false_iff, Ne, isAlive_endScope_iff, hother]
    exact fun h => Bool.false_ne_true h.2
  have hless := living_lt (fun other _ => hdying other) hmember alive hdead
  obtain ⟨now₁, hran, hran', honward, hdone⟩ := runCleanups_onward hm hc hid hended
    (Nat.le_of_lt_succ (Nat.lt_of_lt_of_le hless hliving)) hdead (hm.docile id hmember reached)
  have hfreed : Onward s t first now₁ ((now₁.freeBlocks id).log (.scopeClosed id
      (now.scope id).discipline.kind (now.scope id).cleanups.length (now.scope id).heldBytes)) :=
    .of_steady honward.amid ((steady_freeBlocks now₁ id _).trans (.of_eq rfl rfl rfl rfl))
  have hall := honward.trans hfreed
  have hcleanups := amid.cleanups id hid alive
  refine ⟨_, ?_, ?_, ⟨hall.amid, fun other hlt hother => hall.dead other hlt (hdying other hother),
    fun other hlt hliving hfell b hedge => ?_⟩, hall.dead id hid hdead⟩
  · simp only [finish, hcleanups, hran]
  · simp only [finish, hcleanups, hran']
  · by_cases heq : other = id
    · obtain ⟨cleanup, hcleanup, i, arena, hclose, hfound, rfl⟩ := hedge
      rw [heq] at hcleanup
      exact ((hdone cleanup hcleanup) i arena hclose hfound).later hfreed
    · exact hall.settled other hlt ((isAlive_endScope_other now _ heq).trans hliving) hfell b hedge

/-- A close that goes through ends the scope. -/
theorem closeArena_of_mayClose {arena : Arena} (h : now.mayClose t arena.scope = true)
    (finished : now.finish nested t arena.scope (some t) = (none, now')) :
    now.closeArena nested t arena = (.ok (), now') := by
  obtain ⟨halive, hcloseable, haccessible, houtside⟩ := mayClose_iff.mp h
  have hcheck := checkClose_eq halive hcloseable haccessible
  rw [houtside] at hcheck
  unfold State.closeArena State.closeScope
  rw [if_pos hcloseable, hcheck]
  simp only [Bool.false_eq_true, if_false, finish_closing _ (isAlive_iff.mp halive), finished]

/-- One that does not is refused, whatever callbacks would do. -/
theorem closeArena_of_not_mayClose {arena : Arena} (h : now.mayClose t arena.scope = false) :
    ∃ e, ∀ nested, now.closeArena nested t arena = (.error (.arena e), now) := by
  unfold State.closeArena State.closeScope
  cases hcloseable : (now.scope arena.scope).discipline.kind.closeable with
  | false =>
    refine ⟨.notCloseable (now.scope arena.scope).discipline.kind, fun nested => ?_⟩
    simp only [hcloseable, Bool.false_eq_true, if_false]
  | true =>
    cases hcheck : now.checkClose t arena.scope with
    | error e => exact ⟨.access e, fun nested => by simp only [hcloseable, if_true]⟩
    | ok u =>
      -- What passes the check may be closed.
      obtain ⟨halive, hmay⟩ := checkClose_ok hcheck
      have haccessible : (now.scope arena.scope).discipline.accessibleBy t = true := by
        rcases hmay with hmay | hmay
        · rw [hmay]
          exact beq_iff_eq.mpr rfl
        · rw [hmay]
          rfl
      have halive := isAlive_iff.mpr halive
      have houtside : now.holdsScope t arena.scope = false := by
        rw [checkClose_eq halive hcloseable haccessible] at hcheck
        split at hcheck
        · cases hcheck
        · exact Bool.eq_false_iff.mpr ‹_›
      rw [mayClose_iff.mpr ⟨halive, hcloseable, haccessible, houtside⟩] at h
      cases h

/-- **A close**, wherever the cascade has got to: it comes to its end, and a close that would have
gone through has. -/
theorem closeArena_onward (hm : Charted s t first members)
    (hc : ∀ k, n = k + 1 → Copes s t first members nested other k)
    (amid : Amid s t first now) (hliving : now.living members ≤ n) {arena : Arena}
    (hmember : arena.scope ∈ members)
    (reached : s.mayClose t arena.scope = true → s.Cascades t first arena.scope) :
    ∃ result now', now.closeArena nested t arena = (result, now') ∧
      now.closeArena other t arena = (result, now') ∧ Onward s t first now now' ∧
      s.Spent t now' arena.scope ∧
      (result = .ok () ∧ now.mayClose t arena.scope = true ∨ ∃ e, result = .error (.arena e) ∧
        now.mayClose t arena.scope = false) := by
  have hid := hm.known _ hmember
  cases hmay : now.mayClose t arena.scope with
  | true =>
    obtain ⟨hmay', halive⟩ := (amid.mayClose hid).mp hmay
    obtain ⟨k, rfl⟩ := Nat.exists_eq_add_of_lt
      (Nat.lt_of_lt_of_le (living_pos hmember halive) hliving)
    rw [Nat.zero_add] at hliving hc
    obtain ⟨now', hfinish, hfinish', honward, hdead⟩ := finish_onward hm (hc k rfl) amid hliving
      hmember (reached hmay') halive
    exact ⟨.ok (), now', closeArena_of_mayClose hmay hfinish, closeArena_of_mayClose hmay hfinish',
      honward, fun _ => hdead, .inl ⟨rfl, rfl⟩⟩
  | false =>
    obtain ⟨e, hrefused⟩ := closeArena_of_not_mayClose hmay
    refine ⟨_, now, hrefused nested, hrefused other, .refl amid, fun hmay' => ?_,
      .inr ⟨e, rfl, rfl⟩⟩
    -- A close is refused now that would have gone through: the scope has ended meanwhile.
    rw [← Bool.not_eq_true]
    intro halive
    rw [(amid.mayClose hid).mpr ⟨hmay', halive⟩] at hmay
    cases hmay

/-! ### Callbacks -/

/-- **A docile action** is done to its end. -/
theorem act_onward (hm : Charted s t first members)
    (hc : ∀ k, n = k + 1 → Copes s t first members nested other k)
    (amid : Amid s t first now) (hliving : now.living members ≤ n)
    {action : Action ArenaId Segment} (hdocile : Docile s t first members action) :
    ∃ result now', now.act nested t action = (.ok result, now') ∧
      now.act other t action = (.ok result, now') ∧ Onward s t first now now' ∧
      s.Exhausted t now' [action] := by
  cases action with
  | close i =>
    have hfound := amid.arena? i
    cases hnow : now.arena? i with
    | none =>
      refine ⟨.gone, now, by simp only [act, hnow], by simp only [act, hnow], .refl amid, ?_⟩
      intro j arena hj hthere
      cases List.mem_singleton.mp hj
      rw [← hfound, hnow] at hthere
      cases hthere
    | some arena =>
      rw [hnow] at hfound
      obtain ⟨hmember, hreached⟩ := hdocile arena hfound.symm
      obtain ⟨result, now', hclose, hclose', honward, hspent, houtcome⟩ :=
        closeArena_onward hm hc amid hliving hmember hreached
      have hexhausted : s.Exhausted t now' [.close i] := by
        intro j target hj hthere
        cases List.mem_singleton.mp hj
        rw [← hfound] at hthere
        cases hthere
        exact hspent
      rcases houtcome with ⟨rfl, -⟩ | ⟨e, rfl, -⟩
      · exact ⟨.done, now', by simp only [act, hnow, hclose]; rfl,
          by simp only [act, hnow, hclose']; rfl, honward, hexhausted⟩
      · exact ⟨.failed (.arena e), now', by simp only [act, hnow, hclose]; rfl,
          by simp only [act, hnow, hclose']; rfl, honward, hexhausted⟩
  | alloc i size alignment =>
    have hexhausted : ∀ now', s.Exhausted t now' [.alloc i size alignment] := by
      intro now' j arena hj
      cases List.mem_singleton.mp hj
    have hsame : now.act other t (.alloc i size alignment) =
        now.act nested t (.alloc i size alignment) := rfl
    rw [hsame]
    simp only [act]
    split
    · exact ⟨_, now, rfl, rfl, .refl amid, hexhausted now⟩
    · split
      · rename_i x now' hallocate
        obtain ⟨block, -, hallots⟩ := allocate_allots hallocate
        exact ⟨_, now', rfl, rfl, .of_steady amid hallots.steady, hexhausted now'⟩
      · exact ⟨_, now, rfl, rfl, .refl amid, hexhausted now⟩
  | load _ | get _ _ | panic _ | perform _ => cases hdocile

variable {watch : Watch}

/-- **A docile script** is run to its end, also when it is watched. -/
theorem runScript_onward (hw : ∀ now, Amid s t first now → watch.passes now = true)
    (hm : Charted s t first members)
    (hc : ∀ k, n = k + 1 → Copes s t first members nested other k)
    {script : Script} (amid : Amid s t first now) (hliving : now.living members ≤ n)
    (hdocile : ∀ action ∈ script, Docile s t first members action) :
    ∃ now', now.runScript nested t script = (none, now') ∧
      watch.hook.runScript other t script now = (none, now') ∧ Onward s t first now now' ∧
      s.Exhausted t now' script := by
  have hpasses : ∀ now, Amid s t first now → watch.hook.passes now = true := hw
  induction script generalizing now with
  | nil => exact ⟨now, rfl, Watch.sight_of_passes (hpasses now amid) _, .refl amid, nofun⟩
  | cons action rest ih =>
    obtain ⟨result, now₁, hact, hact', hacted, hdone⟩ :=
      act_onward hm hc amid hliving (hdocile action List.mem_cons_self)
    have hwatched : watch.hook.act other t action now = now.act other t action := by
      have h := hdocile action List.mem_cons_self
      cases action with
      | close _ | alloc _ _ _ => rfl
      | load _ | get _ _ | panic _ | perform _ => cases h
    have hemit : Onward s t first now₁ (now₁.emit (.acted action.name result)) :=
      .of_steady hacted.amid (.of_eq rfl rfl rfl rfl)
    have hemitted := hacted.trans hemit
    have hliving₁ : (now₁.emit (.acted action.name result)).living members ≤ n :=
      Nat.le_trans (hm.living_le hemitted) hliving
    obtain ⟨now', hrest, hrest', hran, hdone'⟩ := ih hemitted.amid hliving₁ fun action h =>
      hdocile action (List.mem_cons_of_mem _ h)
    refine ⟨now', ?_, ?_, hemitted.trans hran, fun i arena hclose hfound => ?_⟩
    · simp only [runScript, hact, hrest]
    · simp only [Hook.runScript, Watch.sight_of_passes (hpasses now amid), hwatched, hact', hrest']
    · rcases List.mem_cons.mp hclose with hfirst | hlater
      · have hspent := hdone i arena (List.mem_singleton.mpr hfirst) hfound
        exact (hspent.later hemit).later hran
      · exact hdone' i arena hlater hfound

/-- **Callbacks cope**, if they may nest as deep as there are scopes to close; it makes no
difference how much deeper they may, nor that they are watched. -/
theorem work_copes (hw : ∀ now, Amid s t first now → watch.passes now = true)
    (hm : Charted s t first members) (n : Nat) {limit limit' : Nat} (hlimit : n ≤ limit)
    (hlimit' : n ≤ limit') :
    Copes s t first members (work t (limit + 1)) (watch.work t (limit' + 1)) n := by
  induction n generalizing limit limit' with
  | zero =>
    refine ⟨fun amid hliving hdocile => ?_, fun amid => ⟨rfl, ?_⟩⟩
    · exact runScript_onward hw hm (fun k h => absurd h (Nat.succ_ne_zero k).symm) amid hliving
        hdocile
    · exact Watch.sight_of_passes (hw _ amid) _
  | succ n ih =>
    obtain ⟨l, rfl⟩ := Nat.exists_eq_add_of_le hlimit
    obtain ⟨l', rfl⟩ := Nat.exists_eq_add_of_le hlimit'
    refine ⟨fun amid hliving hdocile => ?_, fun amid => ⟨rfl, ?_⟩⟩
    · refine runScript_onward hw hm (fun k hk => ?_) amid hliving hdocile
      cases hk
      rw [Nat.add_right_comm, Nat.add_right_comm n 1 l']
      exact ih (Nat.le_add_right n l) (Nat.le_add_right n l')
    · exact Watch.sight_of_passes (hw _ amid) _

/-! ### What is refused meanwhile -/

/-- A scope that is not alive, and that the thread is not inside of, is not closed again. -/
theorem Shut.closeArena_eq {arena : Arena} (h : now.Shut arena.scope)
    (outside : now.holdsScope t arena.scope = false) (nested : Nested) :
    now.closeArena nested t arena = (.error (.arena (.access .scopeNotAlive)), now) := by
  have hcloseable := h.closeable
  have hcheck : now.checkClose t arena.scope = .error .scopeNotAlive := by
    unfold checkClose
    split
    · rw [h.alive]
      rfl
    · rw [outside]
      exact h.alive
    · rename_i hconfined hshared
      cases hd : (now.scope arena.scope).discipline with
      | confined owner => exact absurd hd (hconfined owner)
      | shared => exact absurd hd hshared
      | auto | «global» =>
        rw [hd] at hcloseable
        cases hcloseable
  unfold State.closeArena State.closeScope
  simp only [hcloseable, hcheck, if_true]

/-- Nor does its arena allocate: what is wrong with the request comes first. -/
theorem Shut.allocate_eq {arena : Arena} (h : now.Shut arena.scope) (t : Thread)
    (size alignment : Word) :
    arena.allocate t now size alignment = .error (arena.refusal size alignment) := by
  unfold Arena.allocate Arena.refusal
  cases Alignment.ofBytes? alignment with
  | none => rfl
  | some aligned =>
    dsimp only
    split
    · rfl
    · rw [h.entry t]
      rfl

/-- An arena of a scope that is not alive any more is one that could be closed. -/
theorem Amid.shut (hk : KeptLast s) (amid : Amid s t first now) {i : ArenaId} {arena : Arena}
    (hfound : now.arena? i = some arena) (dead : now.isAlive arena.scope = false) :
    now.Shut arena.scope := by
  rw [amid.arena? i] at hfound
  have hkept := keepsScope_of_arena (List.mem_of_find?_eq_some hfound)
  have hid := (hk _ hkept).lt_size
  refine ⟨dead, ?_⟩
  rw [amid.discipline _ hid]
  cases halive : s.isAlive arena.scope with
  | true => exact (mayClose_iff.mp (amid.fallen _ hid halive dead).mayClose).2.1
  | false => exact (hk.shut hkept halive).closeable

/-- Nor is the thread inside of it, unless it was inside of a scope that had ended. -/
theorem Amid.outside (hk : KeptLast s) (amid : Amid s t first now) {i : ArenaId} {arena : Arena}
    (hfound : now.arena? i = some arena) (dead : now.isAlive arena.scope = false)
    (before : s.isAlive arena.scope = true ∨ s.holdsScope t arena.scope = false) :
    now.holdsScope t arena.scope = false := by
  rw [amid.arena? i] at hfound
  have hid := (hk _ (keepsScope_of_arena (List.mem_of_find?_eq_some hfound))).lt_size
  rw [amid.holdsScope]
  rcases before with halive | houtside
  · exact (mayClose_iff.mp (amid.fallen _ hid halive dead).mayClose).2.2.2
  · exact houtside

/-! ### Families -/

variable {family : List Arena} {arena : Arena}

theorem Family.charted (hk : KeptLast s) (hf : s.Family t family) (first : ScopeId) :
    Charted s t first (family.map (·.scope)) where
  known id hid := by
    obtain ⟨arena, harena, rfl⟩ := List.mem_map.mp hid
    exact (hk _ (keepsScope_of_arena (hf.there arena harena))).lt_size
  docile id hid hreached cleanup hcleanup action haction := by
    obtain ⟨arena, harena, rfl⟩ := List.mem_map.mp hid
    have hstays := hf.within arena harena cleanup hcleanup action haction
    cases action with
    | close i =>
      intro target hfound
      refine ⟨List.mem_map_of_mem (hstays target hfound), fun hmay => ?_⟩
      exact hreached.next ⟨cleanup, hcleanup, i, target, haction, hfound, rfl⟩ hmay
    | alloc _ _ _ => trivial
    | load _ | get _ _ | panic _ | perform _ => cases hstays

/-- Nobody is inside of a scope that is closed, so that no close has to wait. -/
theorem Family.idle (ha : Accounts s) (hf : s.Family t family) (harena : arena ∈ family)
    (hreached : s.Cascades t arena.scope id) : (s.scope id).active = 0 := by
  obtain ⟨other, hother, rfl⟩ := hf.reaches harena hreached
  obtain ⟨-, hcloseable, -, houtside⟩ := mayClose_iff.mp hreached.mayClose
  rw [ha.active]
  split
  · refine Hold.total_eq_zero ha.proper.positive fun u => ?_
    rw [ha.depth, if_pos hcloseable]
    refine List.count_eq_zero.mpr fun hguard => ?_
    by_cases hu : u = t
    · subst hu
      rw [(ha.holdsScope_iff hcloseable).mpr hguard] at houtside
      cases houtside
    · exact hf.vacant other hother u hu hguard
  · rfl

/-- **A close in a family** comes to its end, and always to the same. -/
theorem closeArena_cascade (hk : KeptLast s) (hf : s.Family t family) (harena : arena ∈ family)
    (watch : Watch) (hw : ∀ now, Amid s t arena.scope now → watch.passes now = true)
    (limit limit' : Nat) (hlimit : family.length ≤ limit) (hlimit' : family.length ≤ limit') :
    ∃ result now', s.closeArena (work t limit) t arena = (result, now') ∧
      s.closeArena (watch.work t limit') t arena = (result, now') ∧
      Onward s t arena.scope s now' ∧ s.Spent t now' arena.scope ∧
      (result = .ok () ∧ s.mayClose t arena.scope = true ∨ ∃ e, result = .error (.arena e) ∧
        s.mayClose t arena.scope = false) := by
  have hm := hf.charted hk arena.scope
  have hliving : s.living (family.map (·.scope)) ≤ family.length :=
    Nat.le_trans List.countP_le_length (Nat.le_of_eq (List.length_map _))
  refine closeArena_onward hm (fun k hfamily => ?_) (.refl s t arena.scope) hliving
    (List.mem_map_of_mem harena) fun hmay => .first hmay
  rw [hfamily] at hlimit hlimit'
  obtain ⟨l, rfl⟩ := Nat.exists_eq_add_of_le hlimit
  obtain ⟨l', rfl⟩ := Nat.exists_eq_add_of_le hlimit'
  rw [Nat.add_right_comm, Nat.add_right_comm k 1 l']
  exact work_copes hw hm k (Nat.le_add_right k l) (Nat.le_add_right k l')

/-- **Exactly what is reached has ended** when a close is over. -/
theorem Onward.ended_iff (h : Onward s t first s now') (hspent : s.Spent t now' first)
    (hid : id < s.scopes.size) :
    now'.isAlive id = false ↔ s.isAlive id = false ∨ s.Cascades t first id := by
  constructor
  · intro hdead
    cases halive : s.isAlive id with
    | true => exact .inr (h.amid.fallen id hid halive hdead)
    | false => exact .inl rfl
  · rintro (hdead | hreached)
    · exact h.dead id hid hdead
    · -- Along the path that reaches it: each scope on it has ended and left nothing to be closed.
      clear hid
      induction hreached with
      | first hmay => exact hspent hmay
      | next hbefore hedge hmay ih =>
        have halive := (mayClose_iff.mp hbefore.mayClose).1
        exact h.settled _ (lt_size_of_alive halive) halive ih _ hedge hmay

/-- What was reached is released as a whole, what had ended before is left alone, and nothing of
what is alive has been released. -/
theorem Onward.released (h : Onward s t first s now') (hspent : s.Spent t now' first)
    (hs : Sound s) (htidy : Tidy s now') (hid : id < s.scopes.size) :
    (s.Cascades t first id → now'.Released id) ∧ (s.isAlive id = false → Untouched s now' id) ∧
      (now'.isAlive id = true → now'.Open id) := by
  have hcourse := (htidy hs).course
  have hopens : ∀ {at' : State}, Sound at' → at'.isAlive id = true → at'.Open id := by
    intro at' hat halive
    refine (hat.phases id).resolve_left fun hclosed => ?_
    rw [isAlive_iff, hclosed] at halive
    cases halive
  refine ⟨fun hreached => ?_, fun hdead => hcourse.ended id hid not_false ?_, hopens hcourse.sound⟩
  · have halive := isAlive_iff.mp (mayClose_iff.mp hreached.mayClose).1
    have hdead := (h.ended_iff hspent hid).mpr (.inr hreached)
    have hid' := Nat.lt_of_lt_of_le hid hcourse.size_le
    refine (hcourse.settled id hid' not_false ?_).resolve_left ?_
    · rintro ⟨-, hended⟩
      rw [halive] at hended
      cases hended
    · intro hopen
      rw [isAlive_iff.mpr hopen.1] at hdead
      cases hdead
  · refine (hs.phases id).resolve_right fun hopen => ?_
    rw [isAlive_iff.mpr hopen.1] at hdead
    cases hdead

end

/-! ### Cascades -/

/-- **A close within closes comes to an end.** Cleanups of arenas close arenas and allocate from
them. However deep callbacks may nest, the close ends in one state: the scopes that closes reach
which may go through have been released, each once and as a whole. Meanwhile what has ended refuses
everything. -/
theorem cascade_ends_reached {system : System} {s : State} (hr : Reached (initial system) s)
    {t : Thread} {family : List Arena} (hf : s.Family t family) {arena : Arena}
    (harena : arena ∈ family) :
    ∃ answer s',
      (∀ limit, family.length ≤ limit → s.closeArena (work t limit) t arena = (answer, s')) ∧
      (∀ watch : Watch, (∀ now, Amid s t arena.scope now → watch.passes now = true) →
        ∀ limit, family.length ≤ limit →
          s.closeArena (watch.work t limit) t arena = (answer, s')) ∧
      Amid s t arena.scope s' ∧ (answer = .ok () ↔ s.mayClose t arena.scope = true) ∧
      (∀ now, Amid s t arena.scope now →
        (∀ id, s.Cascades t arena.scope id → (now.scope id).active = 0) ∧
        ∀ i other, now.arena? i = some other → now.isAlive other.scope = false →
          ∀ nested : Nested,
            (s.isAlive other.scope = true ∨ s.holdsScope t other.scope = false →
              now.act nested t (.close i) =
                (.ok (.failed (.arena (.access .scopeNotAlive))), now)) ∧
            ∀ size alignment, now.act nested t (.alloc i size alignment) =
              (.ok (.failed (.arena (other.refusal size alignment))), now)) ∧
      ∀ id < s.scopes.size,
        (s'.isAlive id = false ↔ s.isAlive id = false ∨ s.Cascades t arena.scope id) ∧
        (s.Cascades t arena.scope id → s'.Released id) ∧
        (s.isAlive id = false → Untouched s s' id) ∧
        (s'.isAlive id = true → s'.Open id) := by
  have hk := hr.path.keptLast (initial_keptLast system)
  have ha := hr.path.accounts (initial_accounts system)
  -- All closes end as the watched one does whose callbacks nest no deeper than they have to.
  have hends := closeArena_cascade hk hf harena ⟨fun _ => true, fun s => (none, s)⟩ fun _ _ => rfl
  obtain ⟨answer, s', hclose, hwatched, honward, hspent, hanswer⟩ :=
    hends _ _ (Nat.le_refl family.length) (Nat.le_refl family.length)
  have hplain : ∀ limit, family.length ≤ limit →
      s.closeArena (work t limit) t arena = (answer, s') := by
    intro limit hlimit
    obtain ⟨_, _, hclose', hwatched', -⟩ := hends _ _ hlimit (Nat.le_refl family.length)
    rw [hclose', ← hwatched', hwatched]
  refine ⟨answer, s', hplain, ?_, honward.amid, ?_, ?_, ?_⟩
  · intro watch hw limit hlimit
    obtain ⟨_, _, hclose', hwatched', -⟩ :=
      closeArena_cascade hk hf harena watch hw _ _ hlimit hlimit
    rw [hwatched', ← hclose', hplain limit hlimit]
  · rcases hanswer with ⟨rfl, hmay⟩ | ⟨e, rfl, hmay⟩
    · exact iff_of_true rfl hmay
    · exact iff_of_false (fun h => by cases h) (Bool.eq_false_iff.mp hmay)
  · intro now amid
    refine ⟨fun id hreached => ?_, fun i other hfound hdead nested => ⟨fun hbefore => ?_, ?_⟩⟩
    · have halive := (mayClose_iff.mp hreached.mayClose).1
      rw [amid.active id (lt_size_of_alive halive)]
      exact hf.idle ha harena hreached
    · have hrefused := (amid.shut hk hfound hdead).closeArena_eq
        (amid.outside hk hfound hdead hbefore) nested
      simp only [act, hfound, hrefused, actionResult]
    · intro size alignment
      simp only [act, hfound, (amid.shut hk hfound hdead).allocate_eq t size alignment]
  · intro id hid
    have htidy : Tidy s s' := by
      have h := closeArena_tidy (s := s) (t := t) (work_tame t family.length) arena
      rwa [hclose] at h
    exact ⟨honward.ended_iff hspent hid, honward.released hspent hr.sound htidy hid⟩

/-- Two arenas whose cleanups close each other; the one of the first then allocates from the second
and closes its own. -/
def entwined : State := after .bump 3
  [some ⟨0, .openArena "a" .shared none⟩, some ⟨0, .openArena "b" .confined none⟩,
    some ⟨0, .allocate (.arena "b") (.bytes 8 8) (some "x")⟩,
    some ⟨0, .make (.rebind "x" none (.arena "a")
      (some ("first", [.close "b", .alloc "b" 8 3, .close "a"])) none) none⟩,
    some ⟨0, .make (.rebind "x" none (.arena "b") (some ("second", [.close "a"])) none) none⟩]

theorem entwined_arenas :
    entwined.handles.arenas.values = [⟨1, 2, {}, false⟩, ⟨0, 1, {}, false⟩] := by rfl

theorem entwined_first : ∃ address, (entwined.scope 1).cleanups =
    [⟨"first", address, [.close 1, .alloc 1 8 3, .close 0]⟩] := ⟨_, rfl⟩

theorem entwined_second : ∃ address, (entwined.scope 2).cleanups =
    [⟨"second", address, [.close 0]⟩] := ⟨_, rfl⟩

theorem entwined_family : entwined.Family 0 entwined.handles.arenas.values where
  there _ h := h
  within arena harena cleanup hcleanup action haction := by
    have hthere : ∀ i other, entwined.arena? i = some other →
        other ∈ entwined.handles.arenas.values := fun _ _ h => List.mem_of_find?_eq_some h
    obtain ⟨_, hfirst⟩ := entwined_first
    obtain ⟨_, hsecond⟩ := entwined_second
    rw [entwined_arenas] at harena
    rcases List.mem_pair.mp harena with rfl | rfl
    · rw [hsecond, List.mem_singleton] at hcleanup
      subst hcleanup
      cases List.mem_singleton.mp haction
      exact hthere 0
    · rw [hfirst, List.mem_singleton] at hcleanup
      subst hcleanup
      simp only [List.mem_cons, List.not_mem_nil, or_false] at haction
      rcases haction with rfl | rfl | rfl
      · exact hthere 1
      · exact hthere 1
      · exact hthere 0
  vacant _ _ _ _ := List.not_mem_nil

theorem entwined_cascades : entwined.Cascades 0 1 1 ∧ entwined.Cascades 0 1 2 := by
  have hfirst : entwined.Cascades 0 1 1 := .first (by decide +kernel)
  obtain ⟨_, hcleanups⟩ := entwined_first
  have hedge : entwined.CloseEdge 1 2 :=
    ⟨_, by rw [hcleanups]; exact List.mem_singleton_self _, 1, ⟨1, 2, {}, false⟩,
      List.mem_cons_self, by rfl, rfl⟩
  exact ⟨hfirst, hfirst.next hedge (by decide +kernel)⟩

theorem cascade_ends_reached_entwined :
    entwined.Family 0 entwined.handles.arenas.values ∧
    ∃ s', (∀ limit, 2 ≤ limit →
        entwined.closeArena (work 0 limit) 0 ⟨0, 1, {}, false⟩ = (.ok (), s')) ∧
      s'.aborted = false ∧ s'.Released 1 ∧ s'.Released 2 := by
  have harena : ⟨0, 1, {}, false⟩ ∈ entwined.handles.arenas.values := by
    rw [entwined_arenas]
    exact List.mem_cons_of_mem _ List.mem_cons_self
  obtain ⟨hfirst, hsecond⟩ := entwined_cascades
  obtain ⟨answer, s', hclose, -, hamid, hanswer, -, hids⟩ :=
    cascade_ends_reached (after_reached .bump 3 _) entwined_family harena
  cases hanswer.mpr hfirst.mayClose
  exact ⟨entwined_family, s', hclose, hamid.aborted, (hids 1 (by decide +kernel)).2.1 hfirst,
    (hids 2 (by decide +kernel)).2.1 hsecond⟩

/-- The cleanup of the first arena has closed the second one when it allocates from it, and yet is
told of the alignment. -/
theorem misaligned_before_ended :
    ((entwined.step 3 (some ⟨0, .closeArena "a"⟩)).1.events.drop 5).take 2 =
      [.acted "close" .done, .acted "alloc" (.failed (.arena (.invalidAlignment 3)))] := by
  rfl

end State

end ScopedMemory
