import ScopedMemory.Proofs.TidyRuns
import ScopedMemory.Proofs.Reading

/-! Nothing is used after it is freed, and nothing reaches outside of its allocation.

Every operation that takes no token is secure (`Does.performs`): the segments that it gains or shows
come from allocations, and it writes through at most one of them. Runs are secure by induction on
their steps, from a start that keeps nothing. What is kept and can be accessed then lies in memory
that is attached to its own scope (`confined_to_allocations`). No callback is ever run in such a
session: cleanups and mapped segments both take a token. -/
namespace ScopedMemory

/-! ### New segments -/

namespace State

section
variable {s s' : State} {x : Segment}

/-- A new block belongs to no allocation that was there before. -/
theorem Allots.secure {id : ScopeId} {block : Block} (ha : Allots s id block s') (h : Guarded s)
    (kept : s.keepsScope id = true) : Secure none s s' ∧ s'.Keepable (block.segment id) := by
  have hgrows := ha.grows kept
  have halive := hgrows.alive ha.alive
  have hsound := (hgrows.tidy h.sound).course.sound
  have hsystem := (hgrows.tidy h.sound).course.system
  obtain ⟨memory, events, hs', hsame⟩ := ha.made
  have hjournal : s'.journal = s.journal ++ [⟨id, .attached block⟩] := by
    rw [hs']
    rfl
  have hnew : s'.journal[s.journal.length]? = some ⟨id, .attached block⟩ := by
    rw [hjournal, List.getElem?_concat_length]
  have hextends : Extends s s' :=
    ⟨hjournal ▸ List.prefix_append _ _, fun number array h => by rw [hs']; exact h⟩
  have hsecure : Secure none s s' := by
    refine h.secure_grow hgrows ?_ hextends ?_ ?_
    · rw [hs']
      exact gainBlock_still h.still (lt_size_of_alive ha.alive) block
    · rw [hs']
      exact h.numbered
    · intro origin y hy _ alive' space address hc
      rw [hs']
      refine hsame space address fun hcovers => ?_
      rcases hy.cases with ⟨entry, block', -, hentry, hpart⟩ | ⟨number, array, -, -, hpart⟩
      · have hlt := (List.getElem?_eq_some_iff.mp hentry).1
        exact hsound.disjoint_of_lt (hsystem ▸ h.system) hlt (hextends.getElem?_journal hentry) hnew
          alive' hcovers.2 (hpart.covers hc).2
      · have hspace : Space.native = .array array.id := hcovers.1.symm.trans (hpart.covers hc).1
        cases hspace
  exact ⟨hsecure, .inr ⟨_, _, .block hnew, .refl⟩, fun _ => halive⟩

/-- A new array is not the array of any allocation that was there before. -/
theorem newArray_secure (h : Guarded s) (c : Carrier) (values : List c.Value) :
    Secure none s (s.newArray c values).2 ∧
      (s.newArray c values).2.Keepable (s.newArray c values).1 := by
  let array : HeapArray := ⟨s.arrays.size, c, values.length⟩
  let stored : State := { s with
    memory := s.memory.write (.array array.id) 0 (c.encodeAll .native values)
    arrays := s.arrays.push array }
  have hnew : stored.arrays[s.arrays.size]? = some array := Array.getElem?_push_size
  have hold : ∀ (number : Nat) (array' : HeapArray), s.arrays[number]? = some array' →
      number < s.arrays.size := fun number array' h => (Array.getElem?_eq_some_iff.mp h).1
  have hextends : Extends s stored := by
    refine ⟨List.prefix_rfl, fun number array' hnumber => ?_⟩
    show (s.arrays.push array)[number]? = _
    rw [Array.getElem?_push, if_neg (Nat.ne_of_lt (hold number array' hnumber)), hnumber]
  have hsecure : Secure none s stored := by
    refine h.secure_grow (.store _ _ .refl) h.still hextends ?_ ?_
    · intro number array' hnumber
      have hpushed : (s.arrays.push array)[number]? = some array' := hnumber
      rw [Array.getElem?_push] at hpushed
      split at hpushed
      · rename_i heq
        rw [heq, ← Option.some.inj hpushed]
      · exact h.numbered number array' hpushed
    · intro origin y hy _ _ space address hc
      show (s.memory.write _ _ _).read space address = _
      rw [Memory.write, Memory.splice, Memory.read_overlay, if_neg]
      rintro ⟨rfl, -⟩
      rcases hy.cases with ⟨entry, block, -, -, hpart⟩ | ⟨number, array', -, hnumber, hpart⟩
      · have hspace : Space.array array.id = .native := (hpart.covers hc).1
        cases hspace
      · have hsame : s.arrays.size = array'.id := Space.array.inj (hpart.covers hc).1
        rw [h.numbered number array' hnumber] at hsame
        exact absurd (hold number array' hnumber) (by omega)
  have hall := hsecure.trans (newScope_secure hsecure.guarded .global)
  refine ⟨hall, .inr ⟨.array s.arrays.size, _, ?_, .refl⟩, fun _ => isAlive_newScope stored .global⟩
  exact .array _ hnew

/-- **What is gained** without a token comes from an allocation, and gaining it is secure. -/
theorem Gains.secure {t : Thread} {operation : Operation} {gained : List Segment}
    (hg : Gains t s operation gained s') (h : Guarded s) (free : operation.tokenFree = true) :
    Secure (operation.written? s) s s' ∧ ∀ x ∈ gained, s'.Keepable x := by
  cases hg with
  | beside hb => exact ⟨hb.secure h, List.forall_mem_nil _⟩
  | fresh d => exact ⟨newScope_secure h d, List.forall_mem_nil _⟩
  | @filled x z s' hwritten hx derived fills =>
    rw [List.forall_mem_singleton, hwritten]
    obtain ⟨hrooted, hlasting⟩ := h.keepable hx
    have hz : s.Keepable z := ⟨hrooted.derive derived, derived.partOf.scope ▸ hlasting⟩
    rcases fills with rfl | hwrote
    · exact ⟨.refl h, hz⟩
    · have halive := derived.partOf.scope ▸ checkEntry_alive hwrote.entered hz.2
      have hsecure := hwrote.writes.secure derived.partOf h hrooted halive
      exact ⟨hsecure, hsecure.keepable hz hwrote.writes.grows.alive⟩
  | derived hx hderived =>
    rw [List.forall_mem_singleton]
    obtain ⟨hrooted, hlasting⟩ := h.keepable hx
    exact ⟨.refl h, hrooted.derive hderived, hderived.partOf.scope ▸ hlasting⟩
  | placed address size hempty =>
    rw [List.forall_mem_singleton, hempty free]
    exact ⟨newScope_secure h .global, .inl ⟨rfl, rfl⟩, fun _ => isAlive_newScope s .global⟩
  | array c values =>
    rw [List.forall_mem_singleton]
    exact (newArray_secure h c values).imp_left Secure.widen
  | @again segment name y array _ hy hb =>
    rw [List.forall_mem_singleton]
    have hmade : ∃ number : Nat, s.arrays[number]? = some array := by
      rcases h.segments y (segmentNamed_mem hy) with ⟨hnative, -⟩ | ⟨origin, hd⟩
      · rw [hb] at hnative
        cases hnative
      · rcases hd.cases with ⟨_, _, -, -, hpart⟩ | ⟨number, array', -, hnumber, hpart⟩
        · rw [hpart.backing] at hb
          cases hb
        · rw [hpart.backing] at hb
          cases hb
          exact ⟨number, hnumber⟩
    obtain ⟨number, hnumber⟩ := hmade
    have hsecure : Secure (operation.written? s) s (s.newScope .global).2 :=
      newScope_secure h .global
    exact ⟨hsecure, .inr ⟨.array number, _, .array _ (hsecure.extended.arrays _ _ hnumber), .refl⟩,
      fun _ => isAlive_newScope s .global⟩
  | allotted harena _ hallots =>
    rw [List.forall_mem_singleton]
    exact (hallots.secure h (keepsScope_of_arena harena)).imp_left Secure.widen
  | bound htoken _ _ _ =>
    rw [free] at htoken
    cases htoken
  | registered htoken _ _ _ _ _ _ =>
    rw [free] at htoken
    cases htoken

end

end State

open State

/-! ### Answers -/

/-- An answer that shows no segment. -/
theorem Answer.rooted_of_nil {s : State} {answer : Answer} (h : answer.segments = []) :
    ∀ x ∈ answer.segments, s.Rooted x := by
  rw [h]
  exact fun _ hx => absurd hx List.not_mem_nil

/-- The segments that a query shows come from allocations. -/
theorem Query.answer_rooted {t : Thread} {s : State} {q : Query} {answer : Answer} (h : Guarded s)
    (hq : q.answer t s = .ok answer) : ∀ x ∈ answer.segments, s.Rooted x := by
  cases q with
  | segmentInfo segment =>
    obtain ⟨x, hx, hq⟩ := bind_eq_ok.mp hq
    cases hq
    intro y hy
    rw [List.mem_singleton.mp hy]
    exact h.segments x (segmentNamed_mem hx)
  | elements segment layout count =>
    obtain ⟨x, hx, hq⟩ := bind_eq_ok.mp hq
    obtain ⟨layout, -, hq⟩ := bind_eq_ok.mp hq
    obtain ⟨elements, helements, hq⟩ := bind_eq_ok.mp hq
    cases hq
    exact fun y hy => (h.segments x (segmentNamed_mem hx)).derive
      (.element .refl (access_eq_ok.mp helements) hy)
  | arenaInfo _ | allocatorInfo _ | accessible _ _ =>
    obtain ⟨_, -, hq⟩ := bind_eq_ok.mp hq
    cases hq
    exact Answer.rooted_of_nil rfl
  | compare _ _ | check _ _ _ _ _ | text _ _ =>
    obtain ⟨_, -, hq⟩ := bind_eq_ok.mp hq
    obtain ⟨_, -, hq⟩ := bind_eq_ok.mp hq
    cases hq
    exact Answer.rooted_of_nil rfl
  | offsetOf _ _ | get _ _ _ =>
    obtain ⟨_, -, hq⟩ := bind_eq_ok.mp hq
    obtain ⟨_, -, hq⟩ := bind_eq_ok.mp hq
    obtain ⟨_, -, hq⟩ := bind_eq_ok.mp hq
    cases hq
    exact Answer.rooted_of_nil rfl
  | bytes _ | run _ _ _ _ =>
    obtain ⟨_, -, hq⟩ := bind_eq_ok.mp hq
    obtain ⟨_, -, hq⟩ := bind_eq_ok.mp hq
    obtain ⟨_, -, hq⟩ := bind_eq_ok.mp hq
    obtain ⟨_, -, hq⟩ := bind_eq_ok.mp hq
    cases hq
    exact Answer.rooted_of_nil rfl
  | values _ _ =>
    obtain ⟨_, -, hq⟩ := bind_eq_ok.mp hq
    obtain ⟨_, -, hq⟩ := bind_eq_ok.mp hq
    obtain ⟨_, -, hq⟩ := bind_eq_ok.mp hq
    obtain ⟨_, -, hq⟩ := bind_eq_ok.mp hq
    obtain ⟨_, -, hq⟩ := bind_eq_ok.mp hq
    cases hq
    exact Answer.rooted_of_nil rfl
  | mismatch _ _ | mismatchRange _ _ _ _ _ _ =>
    obtain ⟨_, -, hq⟩ := bind_eq_ok.mp hq
    obtain ⟨_, -, hq⟩ := bind_eq_ok.mp hq
    obtain ⟨found, -, hq⟩ := bind_eq_ok.mp hq
    cases found <;> cases hq <;> exact Answer.rooted_of_nil rfl
  | policy =>
    cases hq
    exact Answer.rooted_of_nil rfl
  | calls mapping =>
    obtain ⟨m, -, hq⟩ := bind_eq_ok.mp hq
    split at hq
    · cases hq
      exact Answer.rooted_of_nil rfl
    · cases hq

/-! ### Operations -/

/-- What a secure operation comes to: the segments it shows come from allocations. -/
structure Performs (through : Option Segment) (s : State) (result : Except Fault Answer × State) :
    Prop where
  secure : Secure through s result.2
  rooted : ∀ answer, result.1 = .ok answer → ∀ x ∈ answer.segments, result.2.Rooted x

theorem Performs.unshown {through : Option Segment} {s s' : State} {answer : Answer}
    (shown : answer.segments = []) (h : Secure none s s') :
    Performs through s (.ok answer, s') := by
  refine ⟨h.widen, fun answer' heq => ?_⟩
  cases heq
  rw [shown]
  exact List.forall_mem_nil _

theorem map_eq_ok {α β : Type} {f : α → β} {outcome : Except Fault α} {b : β} :
    outcome.map f = .ok b ↔ ∃ a, outcome = .ok a ∧ f a = b := by
  cases outcome with
  | error e => exact ⟨nofun, nofun⟩
  | ok a => simp [Except.map]

theorem openArena_secure {t : Thread} {s s' : State} {kind : ScopeKind} {config : Option ArenaConfig}
    {arena : Arena} (h : Guarded s) (hopen : s.openArena t kind config = .ok (arena, s')) :
    Secure none s s' ∧ s'.Lasting arena.scope := by
  rcases openArena_ok hopen with ⟨hprocess, hbeside⟩ | ⟨d, s₁, hbefore, hscope, hafter⟩
  · have hsecure : Secure none s s' := hbeside.secure h
    rw [hprocess]
    exact ⟨hsecure, hsecure.guarded.scopes _ (keepsScope_iff.mpr (.inl rfl))⟩
  · have hcounted : Secure none s s₁ := hbefore.secure h
    have hopened := hcounted.trans (newScope_secure hcounted.guarded d)
    rw [hscope]
    exact ⟨hopened.trans (hafter.secure hopened.guarded),
      fun _ => (Grows.of_beside hafter).alive (isAlive_newScope s₁ d)⟩

/-- **Whatever an operation does without a token is secure.** -/
theorem Does.performs {nested : Nested} {t : Thread} {s : State} {operation : Operation}
    {f : Nested → Except Fault Answer × State} (hd : Does t s operation f) (hn : nested.Tame)
    (hq : nested.Quiet) (h : Guarded s) (free : operation.tokenFree = true) :
    Performs (operation.written? s) s (f nested) := by
  cases hd with
  | query => exact ⟨.refl h, fun answer hanswer => Query.answer_rooted h hanswer⟩
  | name gains renames shown =>
    obtain ⟨hsecure, hkeepable⟩ := gains.secure h free
    have hrenamed := renames.secure hn hsecure.guarded hkeepable
    exact ⟨hsecure.trans hrenamed, fun answer hanswer x hx =>
      (hkeepable x (shown answer hanswer x hx)).1.extend hrenamed.extended⟩
  | openArena hopen =>
    obtain ⟨hsecure, hlasting⟩ := openArena_secure h hopen
    exact .unshown rfl (hsecure.trans (bindArena_secure hn hsecure.guarded _ hlasting))
  | @closeArena arena _ =>
    have hsecure : Secure none s (s.closeArena nested t arena).2 :=
      (closeArena_wanes h.still arena).secure h (closeArena_tidy hn arena h.sound).course
    refine ⟨hsecure.widen, fun answer hanswer => ?_⟩
    obtain ⟨_, -, rfl⟩ := map_eq_ok.mp hanswer
    exact List.forall_mem_nil _
  | @dropArena name arena _ =>
    have herase : Secure none s { s with handles.arenas := s.handles.arenas.erase name } :=
      handles_secure h h.segment_keepable h.carver_keepable (erase_forall h.arena_lasting)
    exact .unshown rfl (herase.trans (releaseArena_secure hn herase.guarded arena))
  | openMapping kept => exact .unshown rfl (bindMapping_secure hn hq h _ kept)
  | @dropMapping name m _ =>
    have herase : Secure none s { s with handles.mappings := s.handles.mappings.erase name } :=
      handles_secure h h.segment_keepable h.carver_keepable h.arena_lasting
    exact .unshown rfl (herase.trans (releaseMapping_secure hn hq herase.guarded m))
  | @ask x request hx =>
    -- No segment is mapped, so that no mapping is asked.
    have hsame : (s.ask nested t x request).2 = s := ask_unmapped (h.segments x hx).unmapped
    refine ⟨by rw [hsame]; exact .refl h, fun answer hanswer => ?_⟩
    obtain ⟨b, -, rfl⟩ := map_eq_ok.mp hanswer
    split
    · exact List.forall_mem_nil _
    · exact List.forall_mem_nil _

theorem Operation.perform_performs {nested : Nested} (hn : nested.Tame) (hq : nested.Quiet)
    (t : Thread) {s : State} (h : Guarded s) {operation : Operation}
    (free : operation.tokenFree = true) :
    Performs (operation.written? s) s (operation.perform nested t s) :=
  (operation.perform_does t s).performs hn hq h free

/-! ### Runs -/

/-- A step that takes no token. -/
def Step.tokenFree (step : Option Step) : Bool := step.all (·.operation.tokenFree)

namespace State

section
variable {s s' s'' : State} {through : Option Segment}

/-- What goes on beside the allocations changes nothing about what follows. -/
theorem Beside.andThen_secure (hb : Beside s s') (h : Guarded s) (h' : Secure through s' s'') :
    Secure through s s'' := by
  have hsecure : Secure none s s' := hb.secure h
  obtain ⟨_, _, _, _, rfl⟩ := hb
  refine ⟨hsecure.course.trans h'.course, hsecure.extended.trans h'.extended, h'.guarded, ?_⟩
  intro origin y hy alive alive' space address hc
  rcases h'.steady origin y (hy.extend hsecure.extended) alive alive' space address hc with
    heq | ⟨x, hx, hd, hcovers⟩
  · exact .inl heq
  · exact .inr ⟨x, hx, hd.extend ⟨List.prefix_rfl, fun _ _ h => h⟩, hcovers⟩

/-- What a step shows, and how it goes on. -/
theorem step_performs (limit : Nat) (h : Guarded s) {step : Step}
    (free : step.operation.tokenFree = true) :
    Performs (step.operation.written? s) s
      ((s.step limit (some step)).1.outcome, (s.step limit (some step)).2) := by
  have hclear : Beside s { s with events := [] } := ⟨_, _, _, _, rfl⟩
  have hcleared : Secure none s { s with events := [] } := hclear.secure h
  have hperforms := step.operation.perform_performs (work_tame step.thread limit)
    (work_quiet step.thread limit) step.thread hcleared.guarded free
  exact ⟨hclear.andThen_secure h hperforms.secure, hperforms.rooted⟩

theorem step_guarded (limit : Nat) (h : Guarded s) {step : Option Step}
    (free : Step.tokenFree step = true) : Guarded (s.step limit step).2 := by
  cases step with
  | none => exact h
  | some step => exact (step_performs limit h free).secure.guarded

theorem run_guarded (limit : Nat) (h : Guarded s) {steps : List (Option Step)}
    (free : ∀ step ∈ steps, Step.tokenFree step = true) : Guarded (s.run limit steps).2 := by
  induction steps generalizing s with
  | nil => exact h
  | cons first rest ih =>
    have hfirst := step_guarded limit h (free first (List.mem_cons_self ..))
    simp only [run]
    split
    · exact hfirst
    · exact ih hfirst fun step hstep => free step (List.mem_cons_of_mem _ hstep)

end

theorem initial_guarded {system : System} (sound : system.Sound) : Guarded (initial system) where
  sound := initial_sound system
  system := sound
  numbered number array h := by simp [initial] at h
  still id := by
    by_cases hid : id = processScope
    · subst hid
      rfl
    · rw [scope_of_size_le (Nat.pos_of_ne_zero hid)]
  segments x hx := by simp [initial, keptSegments, Table.values] at hx
  scopes id hk _ := by
    rcases keepsScope_iff.mp hk with rfl | ⟨arena, ha, rfl⟩ | ⟨x, hx, rfl⟩
    · rfl
    · simp [initial, Table.values] at ha
    · simp [initial, keptSegments, Table.values] at hx

theorem after_guarded {system : System} (sound : system.Sound) (limit : Nat)
    {steps : List (Option Step)} (free : ∀ step ∈ steps, Step.tokenFree step = true) :
    Guarded (after system limit steps) :=
  run_guarded limit (initial_guarded sound) free

/-! ### Confinement -/

/-- Every segment stays inside of its allocation, and so does every access. -/
structure Confined (s : State) : Prop where
  /-- Segments that can be accessed lie in live memory of their own scope. -/
  backed : ∀ x ∈ s.keptSegments, x.size ≠ 0 → s.isAlive x.scope = true →
    s.Backed x ∧ ∃ origin, s.Derives origin x
  /-- Different allocations share no byte. -/
  apart : ∀ origin origin' x y, s.Derives origin x → s.Derives origin' y → origin ≠ origin' →
    s.isAlive x.scope = true → s.isAlive y.scope = true →
    ∀ space address, x.Covers space address → ¬ y.Covers space address
  /-- What a name reaches is live memory. -/
  reached : ∀ names space address, s.Reaches names space address →
    ∃ x ∈ s.keptSegments, s.Backed x ∧ x.Covers space address
  queries : ∀ t (q : Query) memory, s.AgreesOn q.sources memory →
    q.answer t { s with memory } = q.answer t s
  changes : ∀ t (c : Change) memory, s.AgreesOn c.sources memory →
    Tracks s memory (c.apply t s) (c.apply t { s with memory })
  addresses : ∀ t segment layout position memory, s.AgreesOn [segment] memory →
    (Making.fromAddress segment layout position).make t { s with memory } =
      ((Making.fromAddress segment layout position).make t s).map
        fun made => (made.1, { made.2 with memory })
  /-- A change writes through the segment it names, which is alive and may be written. -/
  writes : ∀ t (c : Change) s', c.apply t s = .ok s' → ∃ x,
    s.handles.segments.find? c.target = some x ∧ s.isAlive x.scope = true ∧ x.readOnly = false ∧
      Writes x s s'

section
variable {s : State}

theorem Guarded.backed (h : Guarded s) {x : Segment} (hx : s.Rooted x) (size : x.size ≠ 0)
    (alive : s.isAlive x.scope = true) : s.Backed x ∧ ∃ origin, s.Derives origin x := by
  rcases hx with ⟨-, hzero⟩ | ⟨origin, hd⟩
  · exact absurd hzero size
  · exact ⟨hd.backed h.sound h.system alive size, origin, hd⟩

theorem Guarded.confined (h : Guarded s) : s.Confined where
  backed x hx size alive := h.backed (h.segments x hx) size alive
  apart _ _ _ _ hx hy hne alive alive' _ _ hc :=
    hx.disjoint h.sound h.system h.numbered hy hne alive alive' hc
  reached names space address hr := by
    obtain ⟨name, -, x, hx, alive, hc⟩ := hr
    have hkept : x ∈ s.keptSegments := segmentNamed_mem (named_eq_ok.mpr hx)
    have hsize : x.size ≠ 0 := by
      intro hzero
      have hnone := hc.2
      simp [Memory.within, hzero] at hnone
    exact ⟨x, hkept, (h.backed (h.segments x hkept) hsize alive).1, hc⟩
  queries _ _ _ agrees := Query.answer_agrees h agrees
  changes _ _ _ agrees := Change.apply_tracks h agrees
  addresses _ _ _ _ _ agrees := Making.fromAddress_agrees h agrees
  writes t c s' happly := by
    obtain ⟨x, hx, hwrote⟩ := Change.apply_wrote happly
    have hlasting := (h.segment_keepable x (Table.mem_values_of_find? hx)).2
    exact ⟨x, hx, checkEntry_alive hwrote.entered hlasting, hwrote.writable, hwrote.writes⟩

end

/-- **Nothing is used after it is freed, and nothing escapes from its allocation.** After every
program that takes no token, a segment whose scope is alive lies in one block of that scope that has
not been freed, or in its array. Reads and writes touch such bytes alone. -/
theorem confined_to_allocations (system : System) (sound : system.Sound) (limit : Nat)
    (steps : List (Option Step)) (free : ∀ step ∈ steps, Step.tokenFree step = true) :
    (after system limit steps).Confined ∧
    ∀ step : Step, step.operation.tokenFree = true →
      ((after system limit steps).step limit (some step)).2.Confined ∧
      (∀ answer, ((after system limit steps).step limit (some step)).1.outcome = .ok answer →
        ∀ x ∈ answer.segments, x.size ≠ 0 →
          ((after system limit steps).step limit (some step)).2.isAlive x.scope = true →
          ((after system limit steps).step limit (some step)).2.Backed x) ∧
      ∀ origin y, (after system limit steps).Derives origin y →
        (after system limit steps).isAlive y.scope = true →
        ((after system limit steps).step limit (some step)).2.isAlive y.scope = true →
        ∀ space address, y.Covers space address →
          ((after system limit steps).step limit (some step)).2.memory.read space address =
              (after system limit steps).memory.read space address ∨
            ∃ x, step.operation.written? (after system limit steps) = some x ∧
              (after system limit steps).Derives origin x ∧ x.Covers space address := by
  have hguarded := after_guarded sound limit free
  refine ⟨hguarded.confined, fun step hfree => ?_⟩
  obtain ⟨hsecure, hrooted⟩ := step_performs limit hguarded hfree
  refine ⟨hsecure.guarded.confined, fun answer hanswer x hx size alive => ?_, hsecure.steady⟩
  exact (hsecure.guarded.backed (hrooted answer hanswer x hx) size alive).1

/-- Two arenas on two threads, a part of a block that is written, a copy between the arenas, and a
block that is gone while a name for it is left. -/
def neighbouringArenas : List (Option Step) :=
  [some ⟨1, .openArena "a" .confined none⟩,
    some ⟨2, .openArena "b" .shared none⟩,
    some ⟨1, .allocate (.arena "a") (.bytes 16 8) (some "x")⟩,
    some ⟨2, .allocate (.arena "b") (.bytes 16 8) (some "y")⟩,
    some ⟨1, .make (.slice "x" (.sized 8 4)) (some "z")⟩,
    some ⟨1, .change (.fill "z" 7)⟩,
    some ⟨1, .change (.copy "z" 0 "y" 0 4)⟩,
    some ⟨2, .closeArena "b"⟩]

/-- The part stays inside of its block when the block next to it is freed, whose segment is left
over but not alive. -/
theorem confined_to_allocations_neighbouring :
    System.bump.Sound ∧ (∀ step ∈ neighbouringArenas, Step.tokenFree step = true) ∧
      (after .bump 4 neighbouringArenas).isAlive 2 = false ∧
      (after .bump 4 neighbouringArenas).handles.segments.find? "z" =
        some ⟨68719476744, 4, .native, false, 1⟩ ∧
      (after .bump 4 neighbouringArenas).Backed ⟨68719476744, 4, .native, false, 1⟩ := by
  have hfree : ∀ step ∈ neighbouringArenas, Step.tokenFree step = true := by decide +kernel
  have hfound : (after .bump 4 neighbouringArenas).handles.segments.find? "z" =
      some ⟨68719476744, 4, .native, false, 1⟩ := by decide +kernel
  have hconfined := (confined_to_allocations .bump System.bump_sound 4 neighbouringArenas hfree).1
  refine ⟨System.bump_sound, hfree, by decide +kernel, hfound, ?_⟩
  exact (hconfined.backed _ (segmentNamed_mem (named_eq_ok.mpr hfound)) (by decide)
    (by decide +kernel)).1

end State

end ScopedMemory
