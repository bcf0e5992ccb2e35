import Rynmesh.StreamBroker

/-!
# No text is lost on the way to a subscriber

* `deltasOf` reads the numbered deltas off a ring, and a ring holds the last of
  those that were published (`TaskOk`);
* `replayOf_apply` says that one replay brings a subscriber to the newest delta,
  wherever it stands;
* `Broker.Trims` is all that a prune, an eviction or a `forget` does, and
  `World.Sound.step` carries the invariant along every run;
* `handoff_safe` is the result, and `reentered_task_raises` what happens to a
  task that comes back without its snapshot.
-/

namespace Stream

/-! ### Deltas -/

/-- The deltas among some events, with their numbers. -/
def deltasOf (values : List StreamEvent) : List (Int × String) :=
  values.filterMap fun e => if e.isDelta then some (e.number, e.delta.getD "") else none

/-- The deltas that a task has published, with their numbers. -/
def numbered (deltas : List String) : List (Int × String) :=
  deltas.zipIdx.map fun d => ((d.2 : Int), d.1)

/-- What an ordinary delta does to a subscriber. -/
def Reader.extend (reader : Reader) (d : Int × String) : Reader := ⟨d.1, reader.text ++ d.2⟩

theorem textOf_append (deltas : List String) (d : String) :
    textOf (deltas ++ [d]) = textOf deltas ++ d := by
  simp [textOf, String.join]

theorem numbered_append (deltas : List String) (d : String) :
    numbered (deltas ++ [d]) = numbered deltas ++ [((deltas.length : Int), d)] := by
  simp [numbered, List.zipIdx_append]

@[simp] theorem length_numbered (deltas : List String) :
    (numbered deltas).length = deltas.length := by
  simp [numbered]

theorem numbered_take (deltas : List String) (k : Nat) :
    (numbered deltas).take k = numbered (deltas.take k) := by
  apply List.ext_getElem
  · simp
  · intro i hi hi'
    simp [numbered]

variable {deltas : List String}

theorem mem_numbered_drop {i : Nat} {d : Int × String} (h : d ∈ (numbered deltas).drop i) :
    (i : Int) ≤ d.1 ∧ d.1 < deltas.length := by
  obtain ⟨j, hj, rfl⟩ := List.mem_iff_getElem.mp h
  simp only [List.length_drop, length_numbered] at hj
  simp only [numbered, List.getElem_drop, List.getElem_map, List.getElem_zipIdx]
  omega

theorem mem_numbered_take {k : Nat} {d : Int × String} (h : d ∈ (numbered deltas).take k) :
    d.1 < k := by
  obtain ⟨j, hj, rfl⟩ := List.mem_iff_getElem.mp h
  simp only [List.length_take, length_numbered] at hj
  simp only [numbered, List.getElem_take, List.getElem_map, List.getElem_zipIdx]
  omega

theorem extend_numbered (deltas : List String) :
    (numbered deltas).foldl Reader.extend ⟨-1, ""⟩ = ⟨deltas.length - 1, textOf deltas⟩ := by
  induction deltas using List.reverseRecOn with
  | nil => rfl
  | append_singleton deltas d ih =>
    rw [numbered_append, List.foldl_append, ih, textOf_append]
    simp [Reader.extend]

theorem extend_rest {k : Nat} (hk : k ≤ deltas.length) :
    ((numbered deltas).drop k).foldl Reader.extend ⟨k - 1, textOf (deltas.take k)⟩ =
      ⟨deltas.length - 1, textOf deltas⟩ := by
  have hstart : (⟨k - 1, textOf (deltas.take k)⟩ : Reader) =
      ((numbered deltas).take k).foldl Reader.extend ⟨-1, ""⟩ := by
    rw [numbered_take, extend_numbered, List.length_take, Nat.min_eq_left hk]
  rw [hstart, ← List.foldl_append, List.take_append_drop, extend_numbered]

theorem filter_numbered_drop {i k : Nat} (hik : i ≤ k) :
    ((numbered deltas).drop i).filter (fun d => (k : Int) - 1 < d.1) =
      (numbered deltas).drop k := by
  have hsplit : (numbered deltas).drop i =
      ((numbered deltas).drop i).take (k - i) ++ (numbered deltas).drop k := by
    conv_lhs => rw [← List.take_append_drop (k - i) ((numbered deltas).drop i)]
    rw [List.drop_drop, Nat.add_sub_cancel' hik]
  rw [hsplit, List.filter_append, List.filter_eq_nil_iff.mpr, List.filter_eq_self.mpr,
    List.nil_append]
  · intro d hd
    have hbound := (mem_numbered_drop hd).1
    rw [decide_eq_true_eq]
    omega
  · intro d hd
    rw [List.take_drop, Nat.add_sub_cancel' hik] at hd
    have hbound := mem_numbered_take (List.mem_of_mem_drop hd)
    rw [decide_eq_true_eq]
    omega

/-! ### A subscriber -/

theorem apply_plain {values : List StreamEvent} (hplain : ∀ e ∈ values, e.snapshot = false)
    (reader : Reader) :
    values.foldl Reader.apply reader = (deltasOf values).foldl Reader.extend reader := by
  induction values generalizing reader with
  | nil => rfl
  | cons e values ih =>
    have hrest := ih fun e he => hplain e (.tail _ he)
    have hsnapshot := hplain e (.head _)
    rw [List.foldl_cons, hrest]
    by_cases hdelta : e.isDelta = true
    · simp [deltasOf, Reader.apply, Reader.extend, hdelta, hsnapshot]
    · simp [deltasOf, Reader.apply, hdelta]

theorem deltasOf_filter (values : List StreamEvent) (after : Int) :
    deltasOf (values.filter fun e => !e.isDelta || after < e.number) =
      (deltasOf values).filter fun d => after < d.1 := by
  induction values with
  | nil => rfl
  | cons e values ih =>
    by_cases hdelta : e.isDelta = true
    · by_cases hafter : after < e.number
      · simp only [deltasOf] at ih ⊢
        simp [hdelta, hafter, ih]
      · simp only [deltasOf] at ih ⊢
        simp [hdelta, hafter, ih]
    · simp only [deltasOf] at ih ⊢
      simp [hdelta, ih]

theorem deltasOf_others (values : List StreamEvent) :
    deltasOf (values.filter fun e => !e.isDelta) = [] := by
  simp only [deltasOf, List.filterMap_eq_nil_iff, List.mem_filter, Bool.not_eq_true']
  intro e he
  rw [if_neg (by simp [he.2])]

/-- What the broker knows of a task: its snapshot is all that was published, its
ring holds the last deltas. -/
structure TaskOk (deltas : List String) (values : Option (List StreamEvent))
    (snapshot : Option (Int × String)) : Prop where
  held : values = none → snapshot = none
  whole : ∀ s, snapshot = some s → s = ((deltas.length : Int) - 1, textOf deltas)
  last : ∀ ring, values = some ring → deltasOf ring <:+ numbered deltas
  unsent : snapshot = none → ∀ ring, values = some ring → deltasOf ring = []
  plain : ∀ ring, values = some ring → ∀ e ∈ ring, e.snapshot = false

/-- A subscriber holds the first deltas. -/
def ReaderOk (deltas : List String) (reader : Reader) : Prop :=
  ∃ k ≤ deltas.length, reader = ⟨k - 1, textOf (deltas.take k)⟩

variable {values : Option (List StreamEvent)}

/-- **One replay brings a subscriber to the newest delta.** -/
theorem replayOf_apply {snapshot : Int × String} {reader : Reader}
    (h : TaskOk deltas values (some snapshot)) (hreader : ReaderOk deltas reader) :
    (Broker.replayOf (values.getD []) (some snapshot) reader.last).foldl Reader.apply reader =
      ⟨deltas.length - 1, textOf deltas⟩ := by
  obtain ⟨k, hk, rfl⟩ := hreader
  obtain ⟨ring, rfl⟩ : ∃ ring, values = some ring := by
    cases values with
    | none => exact absurd (h.held rfl) (by simp)
    | some ring => exact ⟨ring, rfl⟩
  obtain ⟨i, hi⟩ : ∃ i, deltasOf ring = (numbered deltas).drop i :=
    ⟨_, (List.suffix_iff_eq_drop.mp (h.last ring rfl))⟩
  have hplain := h.plain ring rfl
  rw [h.whole snapshot rfl]
  simp only [Broker.replayOf, Option.getD_some]
  split
  · have hothers : ∀ e ∈ (ring.filter fun e => !e.isDelta || (k : Int) - 1 < e.number).filter
        fun e => !e.isDelta, e.snapshot = false :=
      fun e he => hplain e (List.mem_of_mem_filter (List.mem_of_mem_filter he))
    rw [List.foldl_cons, apply_plain hothers, deltasOf_others]
    rfl
  · next hgap =>
    have hresult : ∀ e ∈ ring.filter fun e => !e.isDelta || (k : Int) - 1 < e.number,
        e.snapshot = false := fun e he => hplain e (List.mem_of_mem_filter he)
    rw [apply_plain hresult, deltasOf_filter, hi]
    by_cases hbehind : k < deltas.length
    · -- the ring holds the very next delta, and so all that follow
      have hfirst : ∃ e ∈ Broker.newer ring (k - 1), e.number ≤ k := by
        by_contra hnone
        push Not at hnone
        exact hgap ⟨by omega, fun e he => by have := hnone e he; omega⟩
      obtain ⟨e, he, hle⟩ := hfirst
      simp only [Broker.newer, List.mem_filter, Bool.and_eq_true, decide_eq_true_eq] at he
      have hmem : (e.number, e.delta.getD "") ∈ deltasOf ring := by
        simp only [deltasOf, List.mem_filterMap]
        exact ⟨e, he.1, by rw [if_pos he.2.1]⟩
      rw [hi] at hmem
      have hik := (mem_numbered_drop hmem).1
      rw [filter_numbered_drop (by simp only at hik; omega), extend_rest hk]
    · have hall : k = deltas.length := by omega
      rw [List.filter_eq_nil_iff.mpr]
      · rw [hall, List.take_length]
        rfl
      · intro d hd
        have hbound := (mem_numbered_drop hd).2
        rw [decide_eq_true_eq]
        omega

/-! ### The broker -/

/-- The order and the snapshots are those of the tasks in memory. -/
structure Broker.Ok (b : Broker) : Prop where
  nodup : b.order.Nodup
  order : ∀ k, k ∈ b.order ↔ b.held k = true
  held : ∀ k, b.tasks.get? k = none → b.snapshots.get? k = none

/-- A task stays as it is, or is gone. -/
def Broker.Trims (b b' : Broker) : Prop :=
  ∀ k, b'.tasks.get? k = b.tasks.get? k ∧ b'.snapshots.get? k = b.snapshots.get? k ∨
    b'.tasks.get? k = none ∧ b'.snapshots.get? k = none

variable {snapshot : Option (Int × String)}

namespace Broker

variable {l : Limits} {b b' b'' : Broker}

theorem Trims.refl (b : Broker) : b.Trims b := fun _ => .inl ⟨rfl, rfl⟩

theorem Trims.trans (h : b.Trims b') (h' : b'.Trims b'') : b.Trims b'' := by
  intro k
  rcases h' k with ⟨htasks, hsnapshots⟩ | hgone
  · rw [htasks, hsnapshots]
    exact h k
  · exact .inr hgone

theorem forget_trims (b : Broker) (taskId : String) : b.Trims (b.forget taskId) := by
  intro k
  simp only [forget, Dict.get?_erase]
  by_cases hk : k = taskId
  · exact .inr ⟨if_pos hk, if_pos hk⟩
  · exact .inl ⟨if_neg hk, if_neg hk⟩

theorem Ok.forget (h : b.Ok) (taskId : String) : (b.forget taskId).Ok := by
  refine ⟨h.nodup.erase taskId, fun k => ?_, fun k hk => ?_⟩
  · simp only [Broker.forget, Broker.held, h.nodup.mem_erase_iff, h.order, Dict.get?_erase]
    by_cases hk : k = taskId
    · simp [hk]
    · simp [hk]
  · simp only [Broker.forget, Dict.get?_erase] at hk ⊢
    by_cases heq : k = taskId
    · exact if_pos heq
    · rw [if_neg heq] at hk ⊢
      exact h.held k hk

/-- Pruning only forgets tasks. -/
theorem prune_spec (h : b.Ok) (now : String → Rat) : (b.prune now).Ok ∧ b.Trims (b.prune now) := by
  unfold prune
  generalize b.expires.entries = entries
  induction entries generalizing b with
  | nil => exact ⟨h, .refl b⟩
  | cons entry entries ih =>
    rw [List.foldl_cons]
    split
    · obtain ⟨hok, htrims⟩ := ih (h.forget entry.1)
      exact ⟨hok, (forget_trims b entry.1).trans htrims⟩
    · exact ih h

/-- **Room is always found**: the order names a task as long as one is in memory. -/
theorem evictFrom_spec {order : List String} (h : { b with order }.Ok) :
    ∃ b', b.evictFrom l order = .ok b' ∧ b'.Ok ∧ b.Trims b' := by
  induction order generalizing b with
  | nil =>
    have hempty : b.tasks.entries = [] := by
      by_contra hne
      obtain ⟨entry, hentry⟩ := List.exists_mem_of_ne_nil _ hne
      have hkey : entry.1 ∈ b.tasks.keys := List.mem_map_of_mem hentry
      obtain ⟨v, hv⟩ := Dict.mem_keys_iff.mp hkey
      have hmem := (h.order entry.1).mpr (by simp [held, hv])
      cases hmem
    refine ⟨{ b with order := [] }, ?_, h, .refl b⟩
    rw [evictFrom, if_pos (by rw [hempty]; exact l.maxTasks_pos)]
  | cons evicted rest ih =>
    by_cases hroom : b.tasks.entries.length < l.maxTasks
    · refine ⟨{ b with order := evicted :: rest }, ?_, h, .refl b⟩
      rw [evictFrom, if_pos hroom]
    have hforget := h.forget evicted
    simp only [Broker.forget, List.erase_cons_head] at hforget
    obtain ⟨b', hevict, hok, htrims⟩ := ih
      (b := { b with
        tasks := b.tasks.erase evicted, snapshots := b.snapshots.erase evicted
        expires := b.expires.erase evicted }) hforget
    refine ⟨b', ?_, hok, ?_⟩
    · rw [evictFrom, if_neg hroom, hevict]
    · have hgone : b.Trims { b with
          tasks := b.tasks.erase evicted, snapshots := b.snapshots.erase evicted
          expires := b.expires.erase evicted } := forget_trims b evicted
      exact hgone.trans htrims

/-- Room is made by forgetting tasks. -/
theorem makeRoom_spec (h : b.Ok) : ∃ b', b.makeRoom l = .ok b' ∧ b'.Ok ∧ b.Trims b' :=
  evictFrom_spec h

/-- What entering, keeping an event and extending a snapshot leave alone. -/
structure Sets (b b' : Broker) (taskId : String) (ring : List StreamEvent)
    (snapshot : Option (Int × String)) : Prop where
  tasks : ∀ k, b'.tasks.get? k = if k = taskId then some ring else b.tasks.get? k
  snapshots : ∀ k, b'.snapshots.get? k = if k = taskId then snapshot else b.snapshots.get? k
  order : b'.order = if b.held taskId then b.order else b.order ++ [taskId]

theorem Sets.ok {taskId : String} {ring : List StreamEvent} (h : Sets b b' taskId ring snapshot)
    (hok : b.Ok) : b'.Ok := by
  refine ⟨?_, fun k => ?_, fun k hk => ?_⟩
  · rw [h.order]
    split
    · exact hok.nodup
    rename_i hnew
    rw [List.nodup_append]
    refine ⟨hok.nodup, List.nodup_singleton _, ?_⟩
    intro k hk k' hk' heq
    rw [List.mem_singleton] at hk'
    rw [heq, hk', hok.order] at hk
    exact hnew hk
  · have hheld : b'.held k = if k = taskId then true else b.held k := by
      rw [held, h.tasks]
      split
      · rfl
      · rfl
    rw [h.order, hheld]
    by_cases hk : k = taskId
    · rw [if_pos hk, hk]
      split
      · next hmem => simpa using (hok.order taskId).mpr hmem
      · simp
    split
    · exact hok.order k
    · rw [List.mem_append, List.mem_singleton]
      simp only [hk, or_false]
      exact hok.order k
  · rw [h.tasks] at hk
    rw [h.snapshots]
    by_cases heq : k = taskId
    · rw [if_pos heq] at hk
      cases hk
    · rw [if_neg heq] at hk ⊢
      exact hok.held k hk

end Broker

/-! ### Publishing -/

theorem TaskOk.gone (deltas : List String) : TaskOk deltas none none :=
  ⟨fun _ => rfl, fun s hs => (by cases hs), fun ring hring => (by cases hring),
    fun _ ring hring => (by cases hring), fun ring hring => (by cases hring)⟩

theorem TaskOk.entered (deltas : List String) : TaskOk deltas (some []) none :=
  ⟨fun _ => rfl, fun s hs => (by cases hs), fun ring hring =>
    (by cases hring; exact List.nil_suffix),
    fun _ ring hring => (by cases hring; rfl), fun ring hring e he => (by cases hring; cases he)⟩

theorem TaskOk.trims {b b' : Broker} {k : String}
    (h : TaskOk deltas (b.tasks.get? k) (b.snapshots.get? k)) (htrims : b.Trims b') :
    TaskOk deltas (b'.tasks.get? k) (b'.snapshots.get? k) := by
  rcases htrims k with ⟨htasks, hsnapshots⟩ | ⟨htasks, hsnapshots⟩
  · rw [htasks, hsnapshots]
    exact h
  · rw [htasks, hsnapshots]
    exact .gone deltas

theorem deltasOf_append (values : List StreamEvent) (e : StreamEvent) :
    deltasOf (values ++ [e]) = deltasOf values ++ deltasOf [e] :=
  List.filterMap_append

theorem append_suffix (maxlen : Nat) (ring : List StreamEvent) (e : StreamEvent) :
    Broker.append maxlen ring e <:+ ring ++ [e] :=
  List.drop_suffix ..

theorem TaskOk.ring (h : TaskOk deltas values snapshot) :
    deltasOf (values.getD []) <:+ numbered deltas ∧
      (snapshot = none → deltasOf (values.getD []) = []) ∧
      ∀ e ∈ values.getD [], e.snapshot = false := by
  cases values with
  | none => exact ⟨List.nil_suffix, fun _ => rfl, fun e he => by cases he⟩
  | some ring =>
    exact ⟨h.last ring rfl, fun hnone => h.unsent hnone ring rfl, h.plain ring rfl⟩

/-- An event keeps the ring the end of what was told. -/
theorem TaskOk.append {deltas' : List String} {snapshot' : Option (Int × String)}
    (h : TaskOk deltas values snapshot) {e : StreamEvent} (hplain : e.snapshot = false)
    (maxlen : Nat) (hlast : deltasOf (values.getD []) ++ deltasOf [e] <:+ numbered deltas')
    (hwhole : ∀ s, snapshot' = some s → s = ((deltas'.length : Int) - 1, textOf deltas'))
    (hnone : snapshot' = none → deltasOf (values.getD []) ++ deltasOf [e] = []) :
    TaskOk deltas' (some (Broker.append maxlen (values.getD []) e)) snapshot' := by
  have hsuffix := append_suffix maxlen (values.getD []) e
  have hdeltas : deltasOf (Broker.append maxlen (values.getD []) e) <:+
      deltasOf (values.getD []) ++ deltasOf [e] := by
    rw [← deltasOf_append]
    exact hsuffix.filterMap _
  refine ⟨fun heq => (by cases heq), hwhole, ?_, ?_, ?_⟩
  · intro ring hring
    obtain rfl := Option.some.inj hring
    exact hdeltas.trans hlast
  · intro hsnapshot ring hring
    obtain rfl := Option.some.inj hring
    rw [hnone hsnapshot] at hdeltas
    exact List.suffix_nil.mp hdeltas
  · intro ring hring e' he'
    obtain rfl := Option.some.inj hring
    rcases List.mem_append.mp (hsuffix.mem he') with hold | hnew
    · exact h.ring.2.2 e' hold
    · rw [List.mem_singleton.mp hnew]
      exact hplain

namespace Broker

variable {l : Limits} {b b' : Broker} {taskId : String} {deltas : List String}

/-- What one published event leaves, once its task is in memory. -/
structure Keeps (l : Limits) (b b' : Broker) (taskId : String) (deltas : List String)
    (ring : List StreamEvent) (snapshot : Option (Int × String)) : Prop where
  order : b'.order = b.order
  tasks : ∀ k, b'.tasks.get? k = if k = taskId then some ring else b.tasks.get? k
  snapshots : ∀ k, b'.snapshots.get? k = if k = taskId then snapshot else b.snapshots.get? k
  task : TaskOk deltas (some ring) snapshot

theorem keep_other (h : TaskOk deltas (b.tasks.get? taskId) (b.snapshots.get? taskId))
    {e : StreamEvent} (hdelta : e.isDelta = false) (hplain : e.snapshot = false)
    (deadline : Rat) :
    Keeps l b (b.keep l taskId e deadline) taskId deltas
      (append l.maxEventsPerTask ((b.tasks.get? taskId).getD []) e)
      (b.snapshots.get? taskId) := by
  have hnothing : deltasOf [e] = [] := by
    simp [deltasOf, hdelta]
  refine ⟨rfl, fun k => by rw [keep, Dict.get?_set], fun k => ?_, ?_⟩
  · by_cases hk : k = taskId
    · rw [if_pos hk, hk]
      rfl
    · rw [if_neg hk]
      rfl
  · refine h.append hplain _ ?_ h.whole ?_
    · rw [hnothing, List.append_nil]
      exact h.ring.1
    · rw [hnothing, List.append_nil]
      exact h.ring.2.1

/-- **A task in memory takes its next event.** -/
theorem keepEvent_spec (h : TaskOk deltas (b.tasks.get? taskId) (b.snapshots.get? taskId))
    (e : TaskEvent)
    (hcontinued : ∀ text fields, e = .delta text fields →
      (b.snapshots.get? taskId).isSome = true ∨ deltas = [])
    (hlimit : (textOf (e.after deltas)).utf8ByteSize ≤ l.maxSnapshotBytes) (later : Rat) :
    ∃ b' ring snapshot, b.keepEvent l taskId (e.event deltas.length) later = (.ok (), b') ∧
      Keeps l b b' taskId (e.after deltas) ring snapshot ∧
      ((b.snapshots.get? taskId).isSome = true ∨ deltas = [] →
        snapshot.isSome = true ∨ e.after deltas = []) := by
  cases e with
  | state fields | complete fields => exact ⟨_, _, _, rfl, keep_other h rfl rfl _, id⟩
  | error fields => exact ⟨_, _, _, rfl, keep_other h rfl rfl _, id⟩
  | delta text fields =>
    have hprevious : b.snapshotOf taskId = ((deltas.length : Int) - 1, textOf deltas) := by
      unfold snapshotOf
      rcases hcontinued text fields rfl with hsome | hfirst
      · obtain ⟨s, hs⟩ := Option.isSome_iff_exists.mp hsome
        rw [hs, h.whole s hs]
        rfl
      · cases hs : b.snapshots.get? taskId with
        | none =>
          rw [hfirst]
          rfl
        | some s =>
          rw [h.whole s hs]
          rfl
    let e : StreamEvent := TaskEvent.event deltas.length (.delta text fields)
    have hnumber : e.number = deltas.length := rfl
    have hnew : deltasOf [e] = [((deltas.length : Int), text)] := rfl
    let extended : Broker :=
      { b with
        snapshots := b.snapshots.set taskId ((deltas.length : Int), textOf deltas ++ text) }
    refine ⟨extended.keep l taskId e (later + 3600),
      append l.maxEventsPerTask ((b.tasks.get? taskId).getD []) e,
      some ((deltas.length : Int), textOf deltas ++ text), ?_, ⟨rfl, ?_, ?_, ?_⟩,
      fun _ => .inl rfl⟩
    · show b.keepDelta l taskId e later = _
      have htext : e.delta = some text := rfl
      rw [TaskEvent.after, textOf_append] at hlimit
      simp only [keepDelta, htext, hprevious, hnumber]
      rw [if_neg (by omega), if_neg (by omega), if_neg (by omega)]
    · intro k
      simp only [extended, keep, Dict.get?_set]
    · intro k
      simp only [extended, keep, Dict.get?_set]
    · refine h.append rfl _ ?_ ?_ ?_
      · rw [TaskEvent.after, numbered_append, hnew]
        obtain ⟨before, hbefore⟩ := h.ring.1
        exact ⟨before, by rw [← hbefore, List.append_assoc]⟩
      · intro s hs
        obtain rfl := Option.some.inj hs
        rw [TaskEvent.after, textOf_append]
        simp
      · nofun

theorem Trims.held (htrims : b.Trims b') {k : String} (h : b.held k = false) :
    b'.held k = false := by
  unfold Broker.held at h ⊢
  rcases htrims k with ⟨htasks, -⟩ | ⟨htasks, -⟩
  · rw [htasks]
    exact h
  · rw [htasks]
    rfl

theorem tasks_of_not_held {k : String} (h : b.held k = false) : b.tasks.get? k = none := by
  unfold held at h
  exact Option.isNone_iff_eq_none.mp (by simpa using h)

theorem enter_sets (hok : b.Ok) (hnew : b.held taskId = false) :
    Sets b (b.enter taskId) taskId [] none := by
  refine ⟨fun k => Dict.get?_set .., fun k => ?_, by rw [hnew]; rfl⟩
  split
  · next hk => exact hk ▸ hok.held taskId (tasks_of_not_held hnew)
  · rfl

/-- A broker after a publish: some tasks have left, one has taken its event. -/
structure Published (l : Limits) (b b' : Broker) (taskId : String) (now : String → Rat)
    (published : String → List String) (e : TaskEvent) : Prop where
  ok : b'.Ok
  others : ∀ k, k ≠ taskId → b'.tasks.get? k = b.tasks.get? k ∧
      b'.snapshots.get? k = b.snapshots.get? k ∨
    b'.tasks.get? k = none ∧ b'.snapshots.get? k = none
  task : TaskOk (e.after (published taskId)) (b'.tasks.get? taskId) (b'.snapshots.get? taskId)
  kept : published taskId = [] ∨ ((b.prune now).snapshots.get? taskId).isSome = true →
    (b'.snapshots.get? taskId).isSome = true ∨ e.after (published taskId) = []

theorem Keeps.published {middle : Broker} {now : String → Rat} {published : String → List String}
    {e : TaskEvent} {ring : List StreamEvent} (hmiddle : middle.Ok)
    (hothers : ∀ k, k ≠ taskId → middle.tasks.get? k = b.tasks.get? k ∧
        middle.snapshots.get? k = b.snapshots.get? k ∨
      middle.tasks.get? k = none ∧ middle.snapshots.get? k = none)
    (hkeeps : Keeps l middle b' taskId (e.after (published taskId)) ring snapshot)
    (hheld : middle.held taskId = true)
    (hkept : published taskId = [] ∨ ((b.prune now).snapshots.get? taskId).isSome = true →
      snapshot.isSome = true ∨ e.after (published taskId) = []) :
    Published l b b' taskId now published e := by
  have hsets : Sets middle b' taskId ring snapshot :=
    ⟨hkeeps.tasks, hkeeps.snapshots, by rw [if_pos hheld, hkeeps.order]⟩
  refine ⟨hsets.ok hmiddle, fun k hk => ?_, ?_, ?_⟩
  · rw [hkeeps.tasks, hkeeps.snapshots, if_neg hk, if_neg hk]
    exact hothers k hk
  · rw [hkeeps.tasks, hkeeps.snapshots, if_pos rfl, if_pos rfl]
    exact hkeeps.task
  · rw [hkeeps.snapshots, if_pos rfl]
    exact hkept

/-- **A publish does not raise**, unless its delta has lost the snapshot. -/
theorem publish_spec (hok : b.Ok) {published : String → List String}
    (htask : TaskOk (published taskId) (b.tasks.get? taskId) (b.snapshots.get? taskId))
    (e : TaskEvent) (now : String → Rat) (later : Rat)
    (hcontinued : ∀ text fields, e = .delta text fields → published taskId = [] ∨
      (b.prune now).held taskId = false ∨
        ((b.prune now).snapshots.get? taskId).isSome = true)
    (hlimit : (textOf (e.after (published taskId))).utf8ByteSize ≤ l.maxSnapshotBytes) :
    ∃ b', b.publish l taskId (e.event (published taskId).length) now later = (.ok (), b') ∧
      Published l b b' taskId now published e := by
  obtain ⟨hpruned, htrims⟩ := prune_spec hok now
  have hkind : ["state", "delta", "complete", "error"].contains
      (e.event (published taskId).length).event = true := by
    cases e <;> rfl
  unfold publish
  rw [if_pos hkind]
  by_cases hheld : (b.prune now).held taskId = true
  · rw [if_pos hheld]
    have hdelta : ∀ text fields, e = .delta text fields →
        ((b.prune now).snapshots.get? taskId).isSome = true ∨ published taskId = [] := by
      intro text fields he
      rcases hcontinued text fields he with hfirst | hgone | hsome
      · exact .inr hfirst
      · rw [hheld] at hgone
        cases hgone
      · exact .inl hsome
    obtain ⟨b', ring, snapshot, hevent, hkeeps, hkept⟩ :=
      keepEvent_spec (l := l) (htask.trims htrims) e hdelta hlimit later
    exact ⟨b', hevent, hkeeps.published hpruned (fun k _ => htrims k) hheld
      fun h => hkept h.symm⟩
  · rw [if_neg hheld]
    have hout : (b.prune now).held taskId = false := by simpa using hheld
    have hnone := tasks_of_not_held hout
    split
    · next hlate =>
      refine ⟨_, rfl, hpruned, fun k _ => htrims k, ?_, fun hkept => ?_⟩
      · rw [hnone, hpruned.held taskId hnone]
        exact .gone _
      · rcases hkept with hfirst | hsome
        · cases e with
          | delta text fields => exact absurd (by rw [hfirst]; rfl) hlate.2
          | state fields | complete fields | error fields => exact .inr hfirst
        · exact .inl hsome
    · next hnew =>
      obtain ⟨room, hroom, hroomOk, hroomTrims⟩ := makeRoom_spec (l := l) hpruned
      rw [hroom]
      have hentered := enter_sets hroomOk (hroomTrims.held hout)
      have hdelta : ∀ text fields, e = .delta text fields →
          ((room.enter taskId).snapshots.get? taskId).isSome = true ∨
            published taskId = [] := by
        intro text fields he
        subst he
        refine .inr (List.length_eq_zero_iff.mp ?_)
        by_contra hpositive
        exact hnew ⟨rfl, fun hzero => hpositive (by
          have := Option.some.inj hzero
          omega)⟩
      have hstart : TaskOk (published taskId) ((room.enter taskId).tasks.get? taskId)
          ((room.enter taskId).snapshots.get? taskId) := by
        rw [hentered.tasks, hentered.snapshots, if_pos rfl, if_pos rfl]
        exact .entered _
      obtain ⟨b', ring, snapshot, hevent, hkeeps, hkept⟩ :=
        keepEvent_spec (l := l) hstart e hdelta hlimit later
      have hheldRoom : (room.enter taskId).held taskId = true := by
        rw [held, hentered.tasks, if_pos rfl]
        rfl
      refine ⟨b', hevent, hkeeps.published (hentered.ok hroomOk) (fun k hk => ?_) hheldRoom
        fun h => ?_⟩
      · rw [hentered.tasks, hentered.snapshots, if_neg hk, if_neg hk]
        exact htrims.trans hroomTrims k
      · rcases h with hfirst | hsome
        · exact hkept (.inr hfirst)
        · rw [hpruned.held taskId hnone] at hsome
          cases hsome

end Broker

/-! ### Runs -/

/-- **The invariant of the broker, its publishers and its subscribers.** -/
structure World.Sound (w : World) : Prop where
  ok : w.broker.Ok
  tasks : ∀ k, TaskOk (w.published k) (w.broker.tasks.get? k) (w.broker.snapshots.get? k)
  readers : ∀ k reader, ReaderOk (w.published k) (w.readers k reader)
  kept : ∀ k, w.evicted k = false →
    w.published k = [] ∨ (w.broker.snapshots.get? k).isSome = true
  quiet : w.raised = false

/-- A reader is behind, never wrong. -/
theorem ReaderOk.published {reader : Reader} (h : ReaderOk deltas reader) (e : TaskEvent) :
    ReaderOk (e.after deltas) reader := by
  obtain ⟨k, hk, rfl⟩ := h
  cases e with
  | delta text fields =>
    refine ⟨k, ?_, ?_⟩
    · rw [TaskEvent.after, List.length_append]
      omega
    · rw [TaskEvent.after, List.take_append_of_le_length hk]
  | state fields | complete fields | error fields => exact ⟨k, hk, rfl⟩

namespace World

variable {l : Limits} {w : World}

theorem sound_empty : World.empty.Sound where
  ok := ⟨.nil, fun k => ⟨fun h => (by cases h), fun h => (by cases h)⟩, fun _ _ => rfl⟩
  tasks _ := .gone _
  readers _ _ := ⟨0, Nat.le_refl 0, rfl⟩
  kept _ _ := .inl rfl
  quiet := rfl

/-- A task that was never removed was in memory all along. -/
theorem leave_false {pruned last : Broker} {k : String} (h : w.leave pruned last k = false) :
    w.evicted k = false ∧
      (w.broker.held k = true → pruned.held k = true ∧ last.held k = true) := by
  simp only [leave, Bool.or_eq_false_iff, Bool.and_eq_false_iff, Bool.not_eq_false',
    Bool.and_eq_true] at h
  refine ⟨h.1, fun hheld => ?_⟩
  rcases h.2 with hout | hboth
  · rw [hheld] at hout
    cases hout
  · exact hboth

namespace Sound

theorem held (h : w.Sound) {k : String} (hsome : (w.broker.snapshots.get? k).isSome = true) :
    w.broker.held k = true := by
  by_contra hout
  rw [h.ok.held k (Broker.tasks_of_not_held (by simpa using hout))] at hsome
  cases hsome

theorem stays {b' : Broker} {k : String}
    (htrims : b'.tasks.get? k = w.broker.tasks.get? k ∧
        b'.snapshots.get? k = w.broker.snapshots.get? k ∨
      b'.tasks.get? k = none ∧ b'.snapshots.get? k = none) (hheld : b'.held k = true) :
    b'.snapshots.get? k = w.broker.snapshots.get? k := by
  rcases htrims with ⟨-, hsnapshots⟩ | ⟨htasks, -⟩
  · exact hsnapshots
  · rw [Broker.held, htasks] at hheld
    cases hheld

theorem publish (h : w.Sound) (taskId : String) (e : TaskEvent) (now : String → Rat)
    (later : Rat) (hlimit : InLimits l w (.publish taskId e now later))
    (hcontinued : Continued w (.publish taskId e now later)) :
    (w.step l (.publish taskId e now later)).Sound := by
  have hdelta : ∀ text fields, e = .delta text fields → w.published taskId = [] ∨
      (w.broker.prune now).held taskId = false ∨
        ((w.broker.prune now).snapshots.get? taskId).isSome = true := by
    intro text fields he
    subst he
    exact hcontinued
  obtain ⟨b', hpublish, hpublished⟩ :=
    Broker.publish_spec (l := l) h.ok (h.tasks taskId) e now later hdelta hlimit
  simp only [step, hpublish]
  refine ⟨hpublished.ok, fun k => ?_, fun k reader => ?_, fun k hkept => ?_, ?_⟩
  · by_cases hk : k = taskId
    · subst hk
      simp only [Function.update_self]
      exact hpublished.task
    simp only [Function.update_of_ne hk]
    rcases hpublished.others k hk with ⟨htasks, hsnapshots⟩ | ⟨htasks, hsnapshots⟩
    · rw [htasks, hsnapshots]
      exact h.tasks k
    · rw [htasks, hsnapshots]
      exact .gone _
  · by_cases hk : k = taskId
    · subst hk
      simp only [Function.update_self]
      exact (h.readers k reader).published e
    · simp only [Function.update_of_ne hk]
      exact h.readers k reader
  · obtain ⟨hbefore, hstayed⟩ := leave_false hkept
    by_cases hk : k = taskId
    · subst hk
      simp only [Function.update_self]
      refine (hpublished.kept ?_).symm
      rcases h.kept k hbefore with hfirst | hsome
      · exact .inl hfirst
      · have hpruned := (hstayed (h.held hsome)).1
        rw [stays ((Broker.prune_spec h.ok now).2 k) hpruned]
        exact .inr hsome
    · simp only [Function.update_of_ne hk]
      rcases h.kept k hbefore with hfirst | hsome
      · exact .inl hfirst
      · rw [stays (hpublished.others k hk) (hstayed (h.held hsome)).2]
        exact .inr hsome
  · rw [h.quiet]
    rfl

theorem trims (h : w.Sound) {b' : Broker} (hok : b'.Ok) (htrims : w.broker.Trims b') :
    ({ w with broker := b', evicted := w.leave b' b' } : World).Sound where
  ok := hok
  tasks k := (h.tasks k).trims htrims
  readers := h.readers
  kept k hkept := by
    obtain ⟨hbefore, hstayed⟩ := leave_false hkept
    rcases h.kept k hbefore with hfirst | hsome
    · exact .inl hfirst
    · rw [stays (htrims k) (hstayed (h.held hsome)).1]
      exact .inr hsome
  quiet := h.quiet

/-- **What a subscriber gets** is the rest of the text, or nothing of it. -/
theorem replayed (h : w.Sound) (taskId : String) (reader : Nat) (now : String → Rat) :
    let result := (w.broker.replay taskId (w.readers taskId reader).last now).1.foldl
      Reader.apply (w.readers taskId reader)
    if ((w.broker.prune now).snapshots.get? taskId).isSome = true then
      result = ⟨(w.published taskId).length - 1, textOf (w.published taskId)⟩
    else result = w.readers taskId reader := by
  obtain ⟨-, htrims⟩ := Broker.prune_spec h.ok now
  have htask := (h.tasks taskId).trims htrims
  dsimp only [Broker.replay]
  cases hsnapshot : (w.broker.prune now).snapshots.get? taskId with
  | none =>
    rw [hsnapshot] at htask
    obtain ⟨-, hunsent, hplain⟩ := htask.ring
    simp only [Broker.replayOf]
    rw [apply_plain fun e he => hplain e (List.mem_of_mem_filter he), deltasOf_filter,
      hunsent rfl]
    rfl
  | some s =>
    rw [hsnapshot] at htask
    exact replayOf_apply htask (h.readers taskId reader)

theorem replay (h : w.Sound) (taskId : String) (reader : Nat) (now : String → Rat) :
    (w.step l (.replay taskId reader now)).Sound := by
  obtain ⟨hok, htrims⟩ := Broker.prune_spec h.ok now
  have hsound := h.trims hok htrims
  refine ⟨hsound.ok, hsound.tasks, fun k other => ?_, hsound.kept, hsound.quiet⟩
  simp only [step]
  by_cases hk : k = taskId
  · subst hk
    rw [Function.update_self]
    by_cases hreader : other = reader
    · subst hreader
      rw [Function.update_self]
      have hresult := h.replayed k other now
      split at hresult
      · rw [hresult]
        exact ⟨(w.published k).length, Nat.le_refl _, by rw [List.take_length]⟩
      · rw [hresult]
        exact h.readers k other
    · rw [Function.update_of_ne hreader]
      exact h.readers k other
  · rw [Function.update_of_ne hk]
    exact h.readers k other

/-- **One call keeps the invariant.** -/
theorem step (h : w.Sound) {event : Event} (hlimit : InLimits l w event)
    (hcontinued : Continued w event) : (w.step l event).Sound := by
  cases event with
  | publish taskId e now later => exact h.publish taskId e now later hlimit hcontinued
  | replay taskId reader now => exact h.replay taskId reader now
  | forget taskId => exact h.trims (h.ok.forget taskId) (Broker.forget_trims _ taskId)

end Sound

end World

theorem Run.sound {l : Limits} {w : World} (h : Run l Continued w) : w.Sound := by
  induction h with
  | empty => exact World.sound_empty
  | step before event limits ok ih => exact ih.step limits ok

/-- **Stream hand-off loses no text**, in every run where no later delta is
published for a task that came back into memory without its snapshot: no publish
has raised, and after a replay that is not empty, of a task that was never evicted,
a subscriber holds all deltas that were published, each once. -/
theorem handoff_safe {l : Limits} {w : World} (h : Run l Continued w) :
    w.raised = false ∧
      ∀ taskId reader now, w.evicted taskId = false →
        (w.broker.replay taskId (w.readers taskId reader).last now).1 ≠ [] →
        (w.broker.replay taskId (w.readers taskId reader).last now).1.foldl Reader.apply
            (w.readers taskId reader) =
          ⟨(w.published taskId).length - 1, textOf (w.published taskId)⟩ := by
  have hsound := h.sound
  refine ⟨hsound.quiet, fun taskId reader now hkept hreplay => ?_⟩
  have hresult := hsound.replayed taskId reader now
  split at hresult
  · exact hresult
  · next hnone =>
    -- the task has published no delta, or the prune has just removed it
    obtain ⟨hok, htrims⟩ := Broker.prune_spec hsound.ok now
    rcases hsound.kept taskId hkept with hfirst | hsome
    · obtain ⟨k, hk, hreader⟩ := hsound.readers taskId reader
      rw [hresult, hreader, hfirst]
      rw [hfirst, List.length_nil, Nat.le_zero] at hk
      rw [hk]
      rfl
    · rcases htrims taskId with ⟨-, hsnapshots⟩ | ⟨htasks, hsnapshots⟩
      · rw [hsnapshots] at hnone
        exact absurd hsome hnone
      · exact absurd (by simp [Broker.replay, Broker.replayOf, htasks, hsnapshots]) hreplay

/-! ### Memory -/

namespace Broker

variable {l : Limits} {b b' : Broker}

/-- What a broker holds is within its limits, whatever was published. -/
structure Bounded (l : Limits) (b : Broker) : Prop where
  ok : b.Ok
  tasks : b.tasks.entries.length ≤ l.maxTasks
  rings : ∀ k ring, b.tasks.get? k = some ring → ring.length ≤ l.maxEventsPerTask
  snapshots : ∀ k s, b.snapshots.get? k = some s → s.2.utf8ByteSize ≤ l.maxSnapshotBytes

theorem Ok.length (h : b.Ok) : b.tasks.entries.length = b.order.length := by
  have hperm : b.tasks.keys.Perm b.order := by
    refine (List.perm_ext_iff_of_nodup b.tasks.nodup h.nodup).mpr fun k => ?_
    exact Dict.mem_keys_iff.trans (Option.isSome_iff_exists.symm.trans (h.order k).symm)
  rw [← hperm.length_eq, Dict.keys, List.length_map]

theorem Bounded.trims (h : b.Bounded l) (hok : b'.Ok) (htrims : b.Trims b') : b'.Bounded l := by
  refine ⟨hok, ?_, fun k ring hring => ?_, fun k s hs => ?_⟩
  · have hsub : b'.order ⊆ b.order := by
      intro k hk
      by_contra hout
      rw [h.ok.order, Bool.not_eq_true] at hout
      rw [hok.order, htrims.held hout] at hk
      cases hk
    rw [hok.length]
    exact (List.subperm_of_subset hok.nodup hsub).length_le.trans (h.ok.length ▸ h.tasks)
  · rcases htrims k with ⟨htasks, -⟩ | ⟨htasks, -⟩ <;> rw [htasks] at hring
    · exact h.rings k ring hring
    · cases hring
  · rcases htrims k with ⟨-, hsnapshots⟩ | ⟨-, hsnapshots⟩ <;> rw [hsnapshots] at hs
    · exact h.snapshots k s hs
    · cases hs

theorem Bounded.sets {taskId : String} {ring : List StreamEvent} (h : b.Bounded l)
    (hsets : Sets b b' taskId ring snapshot)
    (hroom : b.held taskId = true ∨ b.tasks.entries.length < l.maxTasks)
    (hring : ring.length ≤ l.maxEventsPerTask)
    (hsnapshot : ∀ s, snapshot = some s → s.2.utf8ByteSize ≤ l.maxSnapshotBytes) :
    b'.Bounded l := by
  have hok := hsets.ok h.ok
  refine ⟨hok, ?_, fun k found hfound => ?_, fun k s hs => ?_⟩
  · rw [hok.length, hsets.order]
    rw [h.ok.length] at hroom
    split
    · exact h.ok.length ▸ h.tasks
    · next hnew =>
      rw [List.length_append]
      exact hroom.resolve_left hnew
  · rw [hsets.tasks] at hfound
    split at hfound
    · exact Option.some.inj hfound ▸ hring
    · exact h.rings k found hfound
  · rw [hsets.snapshots] at hs
    split at hs
    · exact hsnapshot s hs
    · exact h.snapshots k s hs

theorem evictFrom_room {order : List String} (h : b.evictFrom l order = .ok b') :
    b'.tasks.entries.length < l.maxTasks := by
  induction order generalizing b with
  | nil =>
    rw [evictFrom] at h
    split at h
    · next hroom => exact Except.ok.inj h ▸ hroom
    · cases h
  | cons evicted rest ih =>
    rw [evictFrom] at h
    split at h
    · next hroom => exact Except.ok.inj h ▸ hroom
    · exact ih h

theorem Bounded.keepEvent {taskId : String} (h : b.Bounded l) (hheld : b.held taskId = true)
    (e : StreamEvent) (later : Rat) : (b.keepEvent l taskId e later).2.Bounded l := by
  have hkeep : ∀ snaps snapshot e deadline,
      (∀ k, snaps.get? k = if k = taskId then snapshot else b.snapshots.get? k) →
      (∀ s, snapshot = some s → s.2.utf8ByteSize ≤ l.maxSnapshotBytes) →
      ({ b with snapshots := snaps }.keep l taskId e deadline).Bounded l :=
    fun snaps snapshot e deadline hsnaps hsize =>
      h.sets ⟨fun k => Dict.get?_set .., hsnaps, (if_pos hheld).symm⟩ (.inl hheld)
        (by rw [append, List.length_drop]; omega) hsize
  have hsame : ∀ k, b.snapshots.get? k =
      if k = taskId then b.snapshots.get? taskId else b.snapshots.get? k := by
    intro k
    split
    · next hk => rw [hk]
    · rfl
  unfold Broker.keepEvent
  split
  · unfold keepDelta
    split
    · exact h
    dsimp only
    split
    · exact h
    split
    · exact h
    split
    · exact h
    next hbytes =>
    refine hkeep _ _ _ _ (fun k => Dict.get?_set ..) fun s hs => ?_
    rw [← Option.some.inj hs]
    exact Nat.le_of_not_lt hbytes
  split
  · exact hkeep _ _ _ _ hsame (h.snapshots taskId)
  · exact hkeep _ _ _ _ hsame (h.snapshots taskId)

theorem Bounded.publish (h : b.Bounded l) (taskId : String) (e : StreamEvent)
    (now : String → Rat) (later : Rat) : (b.publish l taskId e now later).2.Bounded l := by
  obtain ⟨hok, htrims⟩ := prune_spec h.ok now
  have hpruned := h.trims hok htrims
  unfold Broker.publish
  split
  · dsimp only
    split
    · next hheld => exact hpruned.keepEvent hheld e later
    split
    · exact hpruned
    next hout _ =>
    obtain ⟨room, hroom, hroomOk, hroomTrims⟩ := makeRoom_spec (l := l) hok
    rw [hroom]
    have hnew : room.held taskId = false := hroomTrims.held (Bool.eq_false_iff.mpr hout)
    exact ((hpruned.trims hroomOk hroomTrims).sets (enter_sets hroomOk hnew)
      (.inr (evictFrom_room hroom)) (Nat.zero_le _) nofun).keepEvent (by simp [enter, held]) e later
  · exact h

/-- A call, with any event. -/
inductive Call
  | publish (taskId : String) (e : StreamEvent) (now : String → Rat) (later : Rat)
  | replay (taskId : String) (afterSequence : Int) (now : String → Rat)
  | forget (taskId : String)

/-- The broker after a call that returns or raises. -/
def call (l : Limits) (b : Broker) : Call → Broker
  | .publish taskId e now later => (b.publish l taskId e now later).2
  | .replay taskId afterSequence now => (b.replay taskId afterSequence now).2
  | .forget taskId => b.forget taskId

/-- **The memory of a broker is bounded**, whatever is published and whatever the clock reads,
and room for a task is always found. -/
theorem memory_bounded (l : Limits) (calls : List Call) :
    (calls.foldl (call l) .empty).Bounded l ∧
      ∀ now, ∃ room, ((calls.foldl (call l) .empty).prune now).makeRoom l = .ok room := by
  have hrun : ∀ b : Broker, b.Bounded l → (calls.foldl (call l) b).Bounded l := by
    induction calls with
    | nil => exact fun b h => h
    | cons first rest ih =>
      intro b h
      refine ih _ ?_
      cases first with
      | publish taskId e now later => exact h.publish taskId e now later
      | replay taskId afterSequence now =>
        obtain ⟨hok, htrims⟩ := prune_spec h.ok now
        exact h.trims hok htrims
      | forget taskId => exact h.trims (h.ok.forget taskId) (forget_trims b taskId)
  have hbounded := hrun .empty ⟨World.sound_empty.ok, Nat.zero_le _, nofun, nofun⟩
  refine ⟨hbounded, fun now => ?_⟩
  obtain ⟨room, hroom, -⟩ := makeRoom_spec (prune_spec hbounded.ok now).1
  exact ⟨room, hroom⟩

end Broker

/-! ### A task that comes back -/

/-- A broker for one task at a time. -/
def sampleLimits : Limits := ⟨1, 4, 64, by decide, by decide, by decide⟩

def sampleNow : String → Rat := fun _ => 0

def sampleWorld (events : List Event) : World := events.foldl (World.step sampleLimits) .empty

/-- Every call of a list is in the limits and allowed. -/
def Steps (l : Limits) (allowed : World → Event → Prop) (w : World) : List Event → Prop
  | [] => True
  | event :: events =>
      (InLimits l w event ∧ allowed w event) ∧ Steps l allowed (w.step l event) events

instance (l : Limits) (allowed : World → Event → Prop) [∀ w e, Decidable (allowed w e)] :
    (w : World) → (events : List Event) → Decidable (Steps l allowed w events)
  | _, [] => inferInstanceAs (Decidable True)
  | w, event :: events =>
      have := instDecidableSteps l allowed (w.step l event) events
      inferInstanceAs (Decidable ((InLimits l w event ∧ allowed w event) ∧
        Steps l allowed (w.step l event) events))

theorem Run.foldl {l : Limits} {allowed : World → Event → Prop} {events : List Event} {w : World}
    (h : Run l allowed w) (hsteps : Steps l allowed w events) :
    Run l allowed (events.foldl (World.step l) w) := by
  induction events generalizing w with
  | nil => exact h
  | cons event events ih =>
    obtain ⟨⟨hlimit, hallowed⟩, hrest⟩ := hsteps
    exact ih (h.step event hlimit hallowed) hrest

/-- A task publishes a state and its first delta. -/
def sampleEvents : List Event :=
  [.publish "first" (.state []) sampleNow 0, .publish "first" (.delta "Hello" []) sampleNow 0]

theorem handoff_safe_sample :
    ((sampleWorld sampleEvents).broker.replay "first" (-1) sampleNow).1 ≠ [] ∧
      ((sampleWorld sampleEvents).broker.replay "first" (-1) sampleNow).1.foldl Reader.apply
        ⟨-1, ""⟩ = ⟨0, "Hello"⟩ := by
  have hrun : Run sampleLimits Continued (sampleWorld sampleEvents) :=
    Run.empty.foldl (by decide +kernel)
  have hreplay : ((sampleWorld sampleEvents).broker.replay "first" (-1) sampleNow).1 ≠ [] := by
    decide +kernel
  exact ⟨hreplay, (handoff_safe hrun).2 "first" 0 sampleNow (by decide +kernel) hreplay⟩

/-- **A task that comes back raises**: it is evicted by another one, a state brings
it back without its snapshot, and its next delta is not the first. -/
theorem reentered_task_raises :
    ¬ ∀ w, Run sampleLimits (fun _ _ => True) w → w.raised = false := by
  intro hquiet
  have hrun : Run sampleLimits (fun _ _ => True) (sampleWorld (sampleEvents ++
      [.publish "second" (.state []) sampleNow 0, .publish "first" (.state []) sampleNow 0,
        .publish "first" (.delta " world" []) sampleNow 0])) :=
    Run.empty.foldl (by decide +kernel)
  have hraised := hquiet _ hrun
  revert hraised
  decide +kernel

end Stream
