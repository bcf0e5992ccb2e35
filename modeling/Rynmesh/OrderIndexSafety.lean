import Rynmesh.EventHistory
import Rynmesh.OrderIndex

/-!
# The index agrees with the orders

Every file keeps what it holds (`Grows`), so what a call knows of the files stays true
while others read and write (`Fair.mono`).  `Inv` says that a marker stands for an order
file, and that an order whose marker is missing is closed; `index_agrees` reads off what
listings return, in every world that plain steps lead to.
-/

namespace Orders

variable {p : Platform}

/-! ### Results of an order -/

variable {order : Order}

variable {now : Rat}

/-- What a result file counts for. -/
theorem mem_readResultFile {content : Option Json} {item : String × Result} :
    item ∈ readResultFile p now order content ↔
      ∃ signed, content = some signed ∧ verifyResult p signed = some item.2 ∧
        counts p order item.2 = true ∧ item.1 = item.2.createdAt.getD (p.nowIso now) := by
  unfold readResultFile
  cases content with
  | none => simp
  | some signed =>
    cases hverify : verifyResult p signed with
    | none => simp [hverify]
    | some found =>
      by_cases hcounts : counts p order found = true
      · simp only [Option.bind_some, hverify, hcounts, if_true, List.mem_singleton]
        constructor
        · intro heq
          rw [heq]
          exact ⟨signed, rfl, hverify, hcounts, rfl⟩
        · intro ⟨other, hother, hresult, _, htime⟩
          rw [← Option.some.inj hother, hverify] at hresult
          have hfound := Option.some.inj hresult
          exact Prod.ext (by rw [htime, hfound]) hfound.symm
      · simp only [Option.bind_some, hverify, hcounts, Bool.false_eq_true, if_false,
          List.not_mem_nil, false_iff]
        intro ⟨other, hother, hresult, hcounts', _⟩
        rw [← Option.some.inj hother, hverify] at hresult
        rw [← Option.some.inj hresult] at hcounts'
        exact hcounts hcounts'

variable {signed : Json}

variable {result : Result}

/-- A verified result has a known status. -/
theorem verifyResult_status (h : verifyResult p signed = some result) :
    result.status ∈ jobStatusValues := by
  have hfilter := (Option.filter_eq_some_iff.mp h).2
  exact of_decide_eq_true hfilter

variable {found : List (String × Result)}

/-- No status is found where no result counts. -/
theorem latestStatus_eq_empty (h : ∀ item ∈ found, item.2.status ∈ jobStatusValues) :
    latestStatus found = "" ↔ found = [] := by
  constructor
  · intro hstatus
    by_contra hne
    unfold latestStatus at hstatus
    cases hlast : (found.insertionSort fun a b => a.1 ≤ b.1).getLast? with
    | none =>
      rw [List.getLast?_eq_none_iff] at hlast
      have hlength := congrArg List.length hlast
      rw [List.length_insertionSort] at hlength
      exact hne (List.length_eq_zero_iff.mp hlength)
    | some item =>
      rw [hlast] at hstatus
      have hmem := List.mem_of_getLast? hlast
      rw [List.mem_insertionSort] at hmem
      have hvalue := h item hmem
      rw [show item.2.status = "" from hstatus] at hvalue
      revert hvalue
      decide
  · intro hnil
    rw [hnil]
    rfl

/-! ### What only grows -/

structure Grows (w w' : World) : Prop where
  full : ∀ name signed, w.registry.orders.get? name = some (.full signed) →
    w'.registry.orders.get? name = some (.full signed)
  started : ∀ name signed, w.registry.orders.get? name = some (.started signed) →
    w'.registry.orders.get? name = some (.started signed) ∨
      w'.registry.orders.get? name = some (.full signed)
  results : ∀ path signed, w.registry.results.get? path = some signed →
    ∃ signed', w'.registry.results.get? path = some signed'
  now : w.now ≤ w'.now
  history : w.history <:+ w'.history

theorem Grows.become (w : World) (calls : List Call) : Grows w (w.become calls) :=
  ⟨fun _ _ h => h, fun _ _ h => .inl h, fun _ signed h => ⟨signed, h⟩, le_refl _,
    List.suffix_refl _⟩

variable {w w' : World}

/-- A resolved order stays resolved. -/
theorem Resolved.mono {name : String} (h : Resolved w.registry name) (hgrows : Grows w w') :
    Resolved w'.registry name := by
  obtain ⟨path, signed, hpath, hget⟩ := h
  obtain ⟨signed', hget'⟩ := hgrows.results path signed hget
  exact ⟨path, signed', hpath, hget'⟩

/-- An order that is open later was open before. -/
theorem orderIsOpen_mono {now' : Rat} (hle : now ≤ now') (h : orderIsOpen p now' order = true) :
    orderIsOpen p now order = true := by
  unfold orderIsOpen at *
  rw [Bool.or_eq_true] at *
  rcases h with h | h
  · exact .inl h
  · refine .inr ?_
    split at h
    · exact decide_eq_true (le_trans hle (of_decide_eq_true h))
    · rfl

/-- A shut order stays shut. -/
theorem Shut.mono (h : Shut p w order) (hgrows : Grows w w') : Shut p w' order := by
  rcases h with hclosed | hresolved
  · refine .inl ?_
    by_contra hopen
    rw [Bool.not_eq_false] at hopen
    rw [orderIsOpen_mono hgrows.now hopen] at hclosed
    cases hclosed
  · exact .inr (hresolved.mono hgrows)

variable {filter : Filter}

/-- So it is with the age that a filter allows. -/
theorem passes_mono {now' : Rat} (hle : now ≤ now') (h : filter.passes p now' order = true) :
    filter.passes p now order = true := by
  unfold Filter.passes at *
  simp only [Bool.and_eq_true] at *
  obtain ⟨hfields, hage⟩ := h
  refine ⟨hfields, ?_⟩
  unfold recordWithinAge at *
  split at hage
  · rfl
  · rfl
  · rw [Bool.or_eq_true] at *
    rcases hage with hage | hage
    · exact .inl hage
    · refine .inr ?_
      split at hage
      · have hdiff := of_decide_eq_true hage
        exact decide_eq_true (by linarith)
      · cases hage

theorem InRange.mono {now' : Rat} (hle : now ≤ now') (h : filter.InRange now) :
    filter.InRange now' := by
  intro hours hmem
  have hfirst := h hours hmem
  linarith

/-- Nothing raises over an order with times that can be converted. -/
theorem Timely.returns (h : Timely p order) (hrange : filter.InRange now) :
    filter.raises p now order = false := by
  unfold Filter.raises ageRaises
  cases hhours : filter.maxAgeHours with
  | none => simp
  | some hours =>
    have hfirst := not_lt.mpr (hrange hours hhours)
    simp [h.2, hfirst]

/-! ### What a call knows -/

/-- A marker stands for the order file of its name. -/
def Proper (p : Platform) (w : World) (marker : Marker) (signed : Json) (order : Order) : Prop :=
  w.registry.orders.get? marker.2 = some (.full signed) ∧ p.verifyOrder signed = some order ∧
    markerOf p order = marker

variable {marker : Marker}

theorem Proper.mono (h : Proper p w marker signed order) (hgrows : Grows w w') :
    Proper p w' marker signed order :=
  ⟨hgrows.full _ _ h.1, h.2.1, h.2.2⟩

/-- Results that were read of an order. -/
structure FoundFair (p : Platform) (w : World) (order : Order)
    (found : List (String × Result)) : Prop where
  status : ∀ item ∈ found, item.2.status ∈ jobStatusValues
  resolved : found ≠ [] → Resolved w.registry (orderName p order)

theorem FoundFair.mono (h : FoundFair p w order found) (hgrows : Grows w w') :
    FoundFair p w' order found :=
  ⟨h.status, fun hne => (h.resolved hne).mono hgrows⟩

/-- The stages of a submission after its file was written. -/
def Submit.Late : Submit → Prop
  | .create => False
  | .write => False
  | .check => False
  | _ => True

def SubmitFair (p : Platform) (w : World) (signed : Json) (order : Order) : Submit → Prop
  | .create => Timely p order
  | .check => True
  | .write => Timely p order ∧
      (w.registry.orders.get? (orderName p order) = some (.started signed) ∨
        w.registry.orders.get? (orderName p order) = some (.full signed))
  | .glob => w.registry.orders.get? (orderName p order) = some (.full signed)
  | .mark => w.registry.orders.get? (orderName p order) = some (.full signed)
  | .scan reading => w.registry.orders.get? (orderName p order) = some (.full signed) ∧
      reading.order = order ∧ FoundFair p w order reading.found
  | .unmark => w.registry.orders.get? (orderName p order) = some (.full signed) ∧ Shut p w order

/-- The result is about the order file of its name. -/
def About (p : Platform) (w : World) (result : Result) (order : Order) : Prop :=
  ∃ file, w.registry.orders.get? (p.slug result.workOrderId) = some (.full file) ∧
    p.verifyOrder file = some order ∧ counts p order result = true ∧
    p.strip order.workOrderId = order.workOrderId

def PublishFair (p : Platform) (w : World) (result : Result) : Publish → Prop
  | .read => True
  | .write order => About p w result order
  | .unmark order => About p w result order ∧ Resolved w.registry (p.slug result.workOrderId)

/-- What a listing knows of the marker it looks at. -/
def StageFair (p : Platform) (w : World) (start : List Event) (began : Rat) : Listing → Prop
  | .next => True
  | .judge marker signed order => Proper p w marker signed order
  | .scan marker signed reading => Proper p w marker signed reading.order ∧
      FoundFair p w reading.order reading.found ∧
      (∃ time, began ≤ time ∧ time ≤ w.now ∧ orderIsOpen p time reading.order = true) ∧
      (∀ path ∈ reading.remaining, (w.registry.results.get? path).isSome = true) ∧
      (.recorded (orderName p reading.order) ∈ start → reading.found ≠ [] ∨
        ∃ path ∈ reading.remaining, path.1 = orderName p reading.order)
  | .discard marker => ∃ signed order, Proper p w marker signed order ∧ Shut p w order

/-- The order a listing is at. -/
def Listing.At (signed : Json) : Listing → Prop
  | .judge _ current _ => current = signed
  | .scan _ current _ => current = signed
  | _ => False

/-- A record that a listing may return. -/
def RecordFair (p : Platform) (start : List Event) (began now : Rat) (signed : Json) : Prop :=
  ∃ order, p.verifyOrder signed = some order ∧
    (∃ time, began ≤ time ∧ time ≤ now ∧ orderIsOpen p time order = true) ∧
    .recorded (orderName p order) ∉ start

structure ListFair (p : Platform) (w : World) (filter : Filter) (start : List Event)
    (began : Rat) (markers : List Marker) (records : List Json) (stage : Listing) : Prop where
  past : start <:+ w.history
  begun : began ≤ w.now
  range : filter.InRange began
  proper : ∀ marker ∈ markers, ∃ signed order, Proper p w marker signed order
  returned : ∀ signed ∈ records, RecordFair p start began w.now signed
  complete : ∀ signed order, .submitted signed ∈ start → p.verifyOrder signed = some order →
    Shut p w order ∨ filter.passes p w.now order = false ∨ signed ∈ records ∨
      markerOf p order ∈ markers ∨ stage.At signed
  current : StageFair p w start began stage

def Fair (p : Platform) (w : World) : Call → Prop
  | .submit signed order stage => p.verifyOrder signed = some order ∧
      SubmitFair p w signed order stage
  | .publish signed result stage => verifyResult p signed = some result ∧
      PublishFair p w result stage
  | .list filter start began markers records stage =>
      ListFair p w filter start began markers records stage

theorem About.mono (h : About p w result order) (hgrows : Grows w w') :
    About p w' result order := by
  obtain ⟨file, hfile, hrest⟩ := h
  exact ⟨file, hgrows.full _ _ hfile, hrest⟩

/-- What a submission knows outlasts the steps of the others. -/
theorem SubmitFair.mono {stage : Submit} (h : SubmitFair p w signed order stage)
    (hgrows : Grows w w') : SubmitFair p w' signed order stage := by
  cases stage with
  | create => exact h
  | check => trivial
  | write =>
    refine ⟨h.1, ?_⟩
    rcases h.2 with h | h
    · exact hgrows.started _ _ h
    · exact .inr (hgrows.full _ _ h)
  | glob | mark => exact hgrows.full _ _ h
  | scan reading => exact ⟨hgrows.full _ _ h.1, h.2.1, h.2.2.mono hgrows⟩
  | unmark => exact ⟨hgrows.full _ _ h.1, h.2.mono hgrows⟩

variable {began : Rat}

variable {stage : Listing}

theorem StageFair.mono {start : List Event} (h : StageFair p w start began stage)
    (hgrows : Grows w w') : StageFair p w' start began stage := by
  cases stage with
  | next => trivial
  | judge marker signed order => exact Proper.mono h hgrows
  | scan marker signed reading =>
    obtain ⟨hproper, hfound, ⟨time, hbegan, htime, hopen⟩, hremaining, hrecorded⟩ := h
    refine ⟨hproper.mono hgrows, hfound.mono hgrows,
      ⟨time, hbegan, le_trans htime hgrows.now, hopen⟩, ?_, hrecorded⟩
    intro path hpath
    obtain ⟨content, hget⟩ := Option.isSome_iff_exists.mp (hremaining path hpath)
    obtain ⟨content', hget'⟩ := hgrows.results path content hget
    rw [hget']
    rfl
  | discard marker =>
    obtain ⟨signed, order, hproper, hshut⟩ := h
    exact ⟨signed, order, hproper.mono hgrows, hshut.mono hgrows⟩

theorem RecordFair.mono {start : List Event} {now' : Rat} (h : RecordFair p start began now signed)
    (hle : now ≤ now') : RecordFair p start began now' signed := by
  obtain ⟨order, hverify, ⟨time, hbegan, htime, hopen⟩, hrecorded⟩ := h
  exact ⟨order, hverify, ⟨time, hbegan, le_trans htime hle, hopen⟩, hrecorded⟩

variable {markers : List Marker} {records : List Json}

/-- What a listing knows outlasts them too. -/
theorem ListFair.mono {start : List Event}
    (h : ListFair p w filter start began markers records stage) (hgrows : Grows w w') :
    ListFair p w' filter start began markers records stage where
  past := h.past.trans hgrows.history
  begun := le_trans h.begun hgrows.now
  range := h.range
  proper := by
    intro marker hmem
    obtain ⟨signed, order, hproper⟩ := h.proper marker hmem
    exact ⟨signed, order, hproper.mono hgrows⟩
  returned := fun signed hmem => (h.returned signed hmem).mono hgrows.now
  complete := by
    intro signed order hmem hverify
    rcases h.complete signed order hmem hverify with hshut | hpasses | hrest
    · exact .inl (hshut.mono hgrows)
    · refine .inr (.inl ?_)
      by_contra hnow
      rw [Bool.not_eq_false] at hnow
      rw [passes_mono hgrows.now hnow] at hpasses
      cases hpasses
    · exact .inr (.inr hrest)
  current := h.current.mono hgrows

variable {call : Call}

/-- What a call knows stays true while the others move on. -/
theorem Fair.mono (h : Fair p w call) (hgrows : Grows w w') : Fair p w' call := by
  cases call with
  | submit signed order stage => exact ⟨h.1, h.2.mono hgrows⟩
  | publish signed result stage =>
    refine ⟨h.1, ?_⟩
    cases stage with
    | read => trivial
    | write order => exact About.mono h.2 hgrows
    | unmark order => exact ⟨h.2.1.mono hgrows, h.2.2.mono hgrows⟩
  | list filter start began markers records stage => exact ListFair.mono h hgrows

/-! ### The invariant -/

/-- A listing in the history returned what it had to, and no call was ended by a time. -/
def Listed (p : Platform) (event : Event) (past : List Event) : Prop :=
  match event with
  | .listed filter start began ended records =>
      start <:+ past ∧
      (∀ signed ∈ records, RecordFair p start began ended signed) ∧
      ∀ signed order, .submitted signed ∈ start → p.verifyOrder signed = some order →
        orderIsOpen p ended order = true → .recorded (orderName p order) ∉ past →
        filter.passes p ended order = true → signed ∈ records
  | .raised => False
  | _ => True

/-- An order file has the name of its order, and its submission returned or goes on. -/
def FileFair (p : Platform) (w : World) (name : String) (signed : Json) : Prop :=
  ∃ order, p.verifyOrder signed = some order ∧ orderName p order = name ∧ Timely p order ∧
    (.submitted signed ∈ w.history ∨
      ∃ stage, Submit.Late stage ∧ .submit signed order stage ∈ w.calls)

/-- A result file is in the directory of the order that it is about. -/
def ResultFair (p : Platform) (w : World) (path : ResultPath) (signed : Json) : Prop :=
  .recorded path.1 ∈ w.history ∧ ∃ result order, verifyResult p signed = some result ∧
    p.slug result.workOrderId = path.1 ∧ About p w result order

/-- A submitted order has its file, and its marker unless it is shut. -/
def SubmittedFair (p : Platform) (w : World) (signed : Json) : Prop :=
  ∃ order, p.verifyOrder signed = some order ∧
    w.registry.orders.get? (orderName p order) = some (.full signed) ∧
    (markerOf p order ∈ w.registry.markers ∨ Shut p w order)

structure Inv (p : Platform) (w : World) : Prop where
  orders : ∀ name signed, w.registry.orders.get? name = some (.full signed) →
    FileFair p w name signed
  results : ∀ path signed, w.registry.results.get? path = some signed →
    ResultFair p w path signed
  recorded : ∀ name, .recorded name ∈ w.history → Resolved w.registry name
  markers : ∀ marker ∈ w.registry.markers, ∃ signed order, Proper p w marker signed order
  submitted : ∀ signed, .submitted signed ∈ w.history → SubmittedFair p w signed
  calls : ∀ call ∈ w.calls, Fair p w call
  listed : Justified (Listed p) w.history

/-- What a step makes of the files and of the history. -/
structure Sound (p : Platform) (w w' : World) : Prop where
  orders : ∀ name signed, w'.registry.orders.get? name = some (.full signed) →
    w.registry.orders.get? name = some (.full signed) ∨ FileFair p w' name signed
  results : ∀ path signed, w'.registry.results.get? path = some signed →
    w.registry.results.get? path = some signed ∨ ResultFair p w' path signed
  recorded : ∀ name, .recorded name ∈ w'.history →
    .recorded name ∈ w.history ∨ Resolved w'.registry name
  markers : ∀ marker ∈ w'.registry.markers,
    marker ∈ w.registry.markers ∨ ∃ signed order, Proper p w' marker signed order
  dropped : ∀ marker ∈ w.registry.markers, marker ∉ w'.registry.markers →
    ∀ signed order, Proper p w' marker signed order → Shut p w' order
  submitted : ∀ signed, .submitted signed ∈ w'.history →
    .submitted signed ∈ w.history ∨ SubmittedFair p w' signed
  listed : Justified (Listed p) w.history → Justified (Listed p) w'.history

/-- Nothing is owed where nothing was written. -/
theorem Sound.same (hregistry : w'.registry = w.registry) (hhistory : w'.history = w.history) :
    Sound p w w' where
  orders := fun name signed hget => .inl (by rw [← hregistry]; exact hget)
  results := fun path signed hget => .inl (by rw [← hregistry]; exact hget)
  recorded := fun name hmem => .inl (by rw [← hhistory]; exact hmem)
  markers := fun marker hmem => .inl (by rw [← hregistry]; exact hmem)
  dropped := by
    intro marker hmem hnot
    rw [hregistry] at hnot
    exact absurd hmem hnot
  submitted := fun signed hmem => .inl (by rw [← hhistory]; exact hmem)
  listed := fun h => by rw [hhistory]; exact h

/-- A step keeps the invariant if its calls and its writes are fair. -/
theorem Inv.step (h : Inv p w) (hgrows : Grows w w') (hsound : Sound p w w')
    (hcalls : ∀ call ∈ w'.calls, call ∈ w.calls ∨ Fair p w' call)
    (hlate : ∀ signed order stage, Submit.Late stage → .submit signed order stage ∈ w.calls →
      .submitted signed ∈ w'.history ∨
        ∃ stage', Submit.Late stage' ∧ .submit signed order stage' ∈ w'.calls) : Inv p w' where
  orders := by
    intro name signed hget
    rcases hsound.orders name signed hget with hold | hnew
    · obtain ⟨order, hverify, hname, htimely, hdone | ⟨stage, hstage, hmem⟩⟩ :=
        h.orders name signed hold
      · exact ⟨order, hverify, hname, htimely, .inl (hgrows.history.subset hdone)⟩
      · exact ⟨order, hverify, hname, htimely, hlate signed order stage hstage hmem⟩
    · exact hnew
  results := by
    intro path signed hget
    rcases hsound.results path signed hget with hold | hnew
    · obtain ⟨hrecorded, result, order, hverify, hname, habout⟩ := h.results path signed hold
      exact ⟨hgrows.history.subset hrecorded, result, order, hverify, hname, habout.mono hgrows⟩
    · exact hnew
  recorded := by
    intro name hmem
    rcases hsound.recorded name hmem with hold | hnew
    · exact (h.recorded name hold).mono hgrows
    · exact hnew
  markers := by
    intro marker hmem
    rcases hsound.markers marker hmem with hold | hnew
    · obtain ⟨signed, order, hproper⟩ := h.markers marker hold
      exact ⟨signed, order, hproper.mono hgrows⟩
    · exact hnew
  submitted := by
    intro signed hmem
    rcases hsound.submitted signed hmem with hold | hnew
    · obtain ⟨order, hverify, hget, hmarker | hshut⟩ := h.submitted signed hold
      · refine ⟨order, hverify, hgrows.full _ _ hget, ?_⟩
        by_cases hkept : markerOf p order ∈ w'.registry.markers
        · exact .inl hkept
        · exact .inr (hsound.dropped _ hmarker hkept signed order
            ⟨hgrows.full _ _ hget, hverify, rfl⟩)
      · exact ⟨order, hverify, hgrows.full _ _ hget, .inr (hshut.mono hgrows)⟩
    · exact hnew
  calls := by
    intro call hmem
    rcases hcalls call hmem with hold | hnew
    · exact (h.calls call hold).mono hgrows
    · exact hnew
  listed := hsound.listed h.listed

/-- A call begins. -/
theorem Inv.start (h : Inv p w) (hfair : Fair p w call) : Inv p (w.become (call :: w.calls)) := by
  have hgrows := Grows.become w (call :: w.calls)
  refine h.step hgrows (Sound.same rfl rfl) ?_ ?_
  · intro other hmem
    rcases List.mem_cons.mp hmem with heq | hmem
    · rw [heq]
      exact .inr (hfair.mono hgrows)
    · exact .inl hmem
  · intro signed order stage hstage hmem
    exact .inr ⟨stage, hstage, .tail _ hmem⟩

variable {rest : List Call}

/-- A step of one call, that goes on with `next`. -/
theorem Inv.file (next : List Call) (h : Inv p w) (hcall : w.calls.Perm (call :: rest))
    (hcalls : w'.calls = next ++ rest) (hgrows : Grows w w') (hsound : Sound p w w')
    (hfair : ∀ other ∈ next, Fair p w' other)
    (hlate : ∀ signed order stage, call = .submit signed order stage → Submit.Late stage →
      .submitted signed ∈ w'.history ∨
        ∃ stage', Submit.Late stage' ∧ .submit signed order stage' ∈ next) : Inv p w' := by
  refine h.step hgrows hsound ?_ ?_
  · intro other hmem
    rw [hcalls] at hmem
    rcases List.mem_append.mp hmem with hnext | hrest
    · exact .inr (hfair other hnext)
    · exact .inl (hcall.mem_iff.mpr (.tail _ hrest))
  · intro signed order stage hstage hmem
    rw [hcalls]
    rcases List.mem_cons.mp (hcall.mem_iff.mp hmem) with heq | hrest
    · rcases hlate signed order stage heq.symm hstage with hdone | ⟨stage', hstage', hnext⟩
      · exact .inl hdone
      · exact .inr ⟨stage', hstage', List.mem_append_left _ hnext⟩
    · exact .inr ⟨stage, hstage, List.mem_append_right _ hrest⟩

/-- A call goes on without a write. -/
theorem Inv.reads (next : List Call) (h : Inv p w) (hcall : w.calls.Perm (call :: rest))
    (hfair : ∀ other ∈ next, Fair p w other)
    (hlate : ∀ signed order stage, call = .submit signed order stage → Submit.Late stage →
      ∃ stage', Submit.Late stage' ∧ .submit signed order stage' ∈ next) :
    Inv p (w.become (next ++ rest)) := by
  have hgrows := Grows.become w (next ++ rest)
  refine h.file next hcall rfl hgrows (Sound.same rfl rfl) ?_ ?_
  · intro other hmem
    exact (hfair other hmem).mono hgrows
  · intro signed order stage heq hstage
    exact .inr (hlate signed order stage heq hstage)

theorem Inv.current (h : Inv p w) (hcall : w.calls.Perm (call :: rest)) : Fair p w call :=
  h.calls call (hcall.mem_iff.mpr (.head _))

/-- The order of a file has times that can be converted. -/
theorem Inv.timely (h : Inv p w) {name : String}
    (hfile : w.registry.orders.get? name = some (.full signed))
    (hverify : p.verifyOrder signed = some order) : Timely p order := by
  obtain ⟨order', hverify', -, htimely, -⟩ := h.orders name signed hfile
  rw [hverify] at hverify'
  exact Option.some.inj hverify' ▸ htimely

/-! ### Results that are read -/

/-- One result file more is read. -/
theorem FoundFair.read (h : Inv p w) (hfound : FoundFair p w order found) (path : ResultPath)
    {content : Option Json} (hcontent : content = none ∨ content = w.registry.results.get? path)
    (now : Rat) : FoundFair p w order (found ++ readResultFile p now order content) where
  status := by
    intro item hmem
    rcases List.mem_append.mp hmem with hold | hnew
    · exact hfound.status item hold
    · obtain ⟨signed, _, hverify, _⟩ := mem_readResultFile.mp hnew
      exact verifyResult_status hverify
  resolved := by
    intro hne
    by_cases hold : found = []
    · rw [hold, List.nil_append] at hne
      obtain ⟨item, hmem⟩ := List.exists_mem_of_ne_nil _ hne
      obtain ⟨signed, hsome, hverify, hcounts, _⟩ := mem_readResultFile.mp hmem
      rcases hcontent with hnone | hget
      · rw [hnone] at hsome
        cases hsome
      · rw [hget] at hsome
        obtain ⟨_, result, about, hresult, hname, _⟩ := h.results path signed hsome
        have heq : result = item.2 := Option.mem_unique hresult hverify
        refine ⟨path, signed, ?_, hsome⟩
        -- the name of the directory is the slug of the id that was compared
        unfold counts at hcounts
        simp only [Bool.and_eq_true, decide_eq_true_eq] at hcounts
        rw [← hname, heq, hcounts.1.1.2]
        rfl
    · exact hfound.resolved hold

variable {path : ResultPath}

/-- A result that counts resolves its order. -/
theorem Inv.counted (h : Inv p w) {result : Json}
    (hfile : w.registry.orders.get? (orderName p order) = some (.full signed))
    (hverify : p.verifyOrder signed = some order) (hname : path.1 = orderName p order)
    (hget : w.registry.results.get? path = some result) :
    p.strip order.workOrderId = order.workOrderId ∧
      ∀ now, readResultFile p now order (some result) ≠ [] := by
  obtain ⟨_, found, about, hresult, hslug, file, hfull, habout, hcounts, hstrip⟩ :=
    h.results path result hget
  rw [hslug, hname, hfile] at hfull
  have hsame : signed = file := OrderFile.full.inj (Option.some.inj hfull)
  rw [← hsame, hverify] at habout
  rw [← Option.some.inj habout] at hcounts hstrip
  refine ⟨hstrip, ?_⟩
  intro now hnil
  have hmem : (found.createdAt.getD (p.nowIso now), found) ∈
      readResultFile p now order (some result) :=
    mem_readResultFile.mpr ⟨result, rfl, hresult, hcounts, rfl⟩
  rw [hnil] at hmem
  cases hmem

/-- A resolved order has a result among those listed. -/
theorem Inv.listedPaths (h : Inv p w)
    (hfile : w.registry.orders.get? (orderName p order) = some (.full signed))
    (hverify : p.verifyOrder signed = some order)
    (hresolved : Resolved w.registry (orderName p order)) :
    ∃ path ∈ resultPaths p w.registry order, path.1 = orderName p order := by
  obtain ⟨path, result, hname, hget⟩ := hresolved
  obtain ⟨hstrip, _⟩ := h.counted hfile hverify hname hget
  refine ⟨path, ?_, hname⟩
  unfold resultPaths
  rw [List.mem_insertionSort, List.mem_filter]
  refine ⟨Dict.mem_keys_iff.mpr ⟨result, hget⟩, ?_⟩
  rw [hstrip, hname]
  unfold orderName
  simp

theorem resultPaths_isSome {registry : Registry} (h : path ∈ resultPaths p registry order) :
    (registry.results.get? path).isSome = true := by
  unfold resultPaths at h
  rw [List.mem_insertionSort, List.mem_filter] at h
  obtain ⟨signed, hget⟩ := Dict.mem_keys_iff.mp h.1
  rw [hget]
  rfl

/-! ### Writing steps -/

section Writing

variable {w : World} {rest : List Call}

/-- The order file is created empty. -/
theorem Inv.create (h : Inv p w) (hcall : w.calls.Perm (.submit signed order .create :: rest))
    (hnone : w.registry.orders.get? (orderName p order) = none) :
    Inv p ((w.setOrder (orderName p order) (.started signed)).become
      (.submit signed order .write :: rest)) := by
  have hold : ∀ name file, w.registry.orders.get? name = some file →
      (w.registry.orders.set (orderName p order) (.started signed)).get? name = some file := by
    intro name file hget
    have hne : name ≠ orderName p order := by
      intro heq
      rw [heq, hnone] at hget
      cases hget
    rw [Dict.get?_set_ne _ _ hne]
    exact hget
  refine h.file [.submit signed order .write] hcall rfl
    ⟨fun name other hget => hold name _ hget, fun name other hget => .inl (hold name _ hget),
      fun path other hget => ⟨other, hget⟩, le_refl _, List.suffix_refl _⟩
    ⟨?_, fun _ _ hget => .inl hget, fun _ hmem => .inl hmem, fun _ hmem => .inl hmem,
      fun _ hmem hnot => absurd hmem hnot, fun _ hmem => .inl hmem, fun hlisted => hlisted⟩ ?_ ?_
  · intro name other hget
    refine .inl ?_
    by_cases hname : name = orderName p order
    · rw [hname] at hget
      have hself := (Dict.get?_set_self w.registry.orders (orderName p order)
        (.started signed)).symm.trans hget
      cases hself
    · exact (Dict.get?_set_ne w.registry.orders (.started signed) hname).symm.trans hget
  · intro other hmem
    rw [List.mem_singleton.mp hmem]
    exact ⟨(h.current hcall).1, (h.current hcall).2, .inl (Dict.get?_set_self _ _ _)⟩
  · intro other order' stage heq hstage
    cases heq
    cases hstage

/-- The order file is written. -/
theorem Inv.write (h : Inv p w) (hcall : w.calls.Perm (.submit signed order .write :: rest)) :
    Inv p ((w.setOrder (orderName p order) (.full signed)).become
      (.submit signed order .glob :: rest)) := by
  obtain ⟨hverify, htimely, hwriting⟩ := h.current hcall
  have hset : ∀ name file, w.registry.orders.get? name = some file →
      (w.registry.orders.set (orderName p order) (.full signed)).get? name = some file ∨
        file = .started signed ∧ name = orderName p order := by
    intro name file hget
    by_cases hname : name = orderName p order
    · rw [hname] at hget
      rcases hwriting with hstarted | hfull
      · rw [hstarted] at hget
        exact .inr ⟨(Option.some.inj hget).symm, hname⟩
      · rw [hfull] at hget
        rw [hname, Dict.get?_set_self]
        exact .inl hget
    · rw [Dict.get?_set_ne _ _ hname]
      exact .inl hget
  refine h.file [.submit signed order .glob] hcall rfl
    ⟨?_, ?_, fun path other hget => ⟨other, hget⟩, le_refl _, List.suffix_refl _⟩
    ⟨?_, fun _ _ hget => .inl hget, fun _ hmem => .inl hmem, fun _ hmem => .inl hmem,
      fun _ hmem hnot => absurd hmem hnot, fun _ hmem => .inl hmem, fun hlisted => hlisted⟩ ?_ ?_
  · intro name other hget
    rcases hset name _ hget with hkept | ⟨hstarted, _⟩
    · exact hkept
    · cases hstarted
  · intro name other hget
    rcases hset name _ hget with hkept | ⟨hstarted, hname⟩
    · exact .inl hkept
    · rw [OrderFile.started.inj hstarted, hname]
      exact .inr (Dict.get?_set_self _ _ _)
  · intro name other hget
    by_cases hname : name = orderName p order
    · rw [hname] at hget
      have hself := (Dict.get?_set_self w.registry.orders (orderName p order)
        (.full signed)).symm.trans hget
      rw [← OrderFile.full.inj (Option.some.inj hself)]
      exact .inr ⟨order, hverify, hname.symm, htimely, .inr ⟨.glob, trivial, (.head _)⟩⟩
    · exact .inl ((Dict.get?_set_ne w.registry.orders (.full signed) hname).symm.trans hget)
  · intro other hmem
    rw [List.mem_singleton.mp hmem]
    exact ⟨hverify, Dict.get?_set_self _ _ _⟩
  · intro other order' stage heq hstage
    cases heq
    cases hstage

/-- The marker is written, and the order counts as submitted. -/
theorem Inv.mark (h : Inv p w) (hcall : w.calls.Perm (.submit signed order .mark :: rest)) :
    Inv p (((w.addMarker (markerOf p order)).become rest).log (.submitted signed)) := by
  obtain ⟨hverify, hfull⟩ := h.current hcall
  refine h.file [] hcall rfl
    ⟨fun _ _ hget => hget, fun _ _ hget => .inl hget, fun _ other hget => ⟨other, hget⟩, le_refl _,
      List.suffix_cons _ _⟩
    ⟨fun _ _ hget => .inl hget, fun _ _ hget => .inl hget, ?_, ?_, ?_, ?_,
      fun hlisted => hlisted.cons trivial⟩ ?_ ?_
  · intro name hmem
    cases hmem with
    | tail _ hmem => exact .inl hmem
  · intro marker hmem
    rcases Finset.mem_insert.mp hmem with heq | hmem
    · exact .inr ⟨signed, order, by rw [heq]; exact hfull, hverify, heq.symm⟩
    · exact .inl hmem
  · intro marker hmem hnot
    exact absurd (Finset.mem_insert_of_mem hmem) hnot
  · intro other hmem
    rcases List.mem_cons.mp hmem with heq | hmem
    · rw [Event.submitted.inj heq]
      exact .inr ⟨order, hverify, hfull, .inl (Finset.mem_insert_self _ _)⟩
    · exact .inl hmem
  · intro other hmem
    cases hmem
  · intro other order' stage heq hstage
    rw [← (Call.submit.inj heq).1]
    exact .inl (.head _)

/-- Dropping the marker of a shut order misses no open one. -/
theorem dropped_shut (calls : List Call) (hverify : p.verifyOrder signed = some order)
    (hshut : Shut p w order) (hfull : w.registry.orders.get? marker.2 = some (.full signed))
    {other : Marker} (hmem : other ∈ w.registry.markers)
    (hnot : other ∉ ((w.dropMarker marker).become calls).registry.markers) {signed' : Json}
    {order' : Order}
    (hproper : Proper p
    ((w.dropMarker marker).become calls) other signed' order') : Shut p w order' := by
  have heq : other = marker := by
    by_contra hne
    exact hnot (Finset.mem_erase.mpr ⟨hne, hmem⟩)
  have hfile := hproper.1
  rw [heq] at hfile
  have hsame : signed = signed' :=
    OrderFile.full.inj (Option.mem_unique hfull hfile)
  have horder := hproper.2.1
  rw [← hsame, hverify] at horder
  rw [← Option.some.inj horder]
  exact hshut

/-- The marker of an order that is not open is dropped. -/
theorem Inv.unmark (h : Inv p w) (hcall : w.calls.Perm (.submit signed order .unmark :: rest)) :
    Inv p (((w.dropMarker (markerOf p order)).become rest).log (.submitted signed)) := by
  obtain ⟨hverify, hfull, hshut⟩ := h.current hcall
  refine h.file [] hcall rfl
    ⟨fun _ _ hget => hget, fun _ _ hget => .inl hget, fun _ other hget => ⟨other, hget⟩, le_refl _,
      List.suffix_cons _ _⟩
    ⟨fun _ _ hget => .inl hget, fun _ _ hget => .inl hget, ?_,
      fun _ hmem => .inl (Finset.mem_of_mem_erase hmem), ?_, ?_,
      fun hlisted => hlisted.cons trivial⟩ ?_ ?_
  · intro name hmem
    cases hmem with
    | tail _ hmem => exact .inl hmem
  · intro marker hmem hnot signed' order' hproper
    exact dropped_shut rest hverify hshut hfull hmem hnot hproper
  · intro other hmem
    rcases List.mem_cons.mp hmem with heq | hmem
    · rw [Event.submitted.inj heq]
      exact .inr ⟨order, hverify, hfull, .inr hshut⟩
    · exact .inl hmem
  · intro other hmem
    cases hmem
  · intro other order' stage heq hstage
    rw [← (Call.submit.inj heq).1]
    exact .inl (.head _)

/-- A result is recorded. -/
theorem Inv.record (h : Inv p w)
    (hcall : w.calls.Perm (.publish signed result (.write order) :: rest)) :
    Inv p (((w.setResult (p.slug result.workOrderId, p.subjectSlug signed) signed).become
      (.publish signed result (.unmark order) :: rest)).log
        (.recorded (p.slug result.workOrderId))) := by
  obtain ⟨hverify, habout⟩ := h.current hcall
  have hself := Dict.get?_set_self w.registry.results
    (p.slug result.workOrderId, p.subjectSlug signed) signed
  refine h.file [.publish signed result (.unmark order)] hcall rfl
    ⟨fun _ _ hget => hget, fun _ _ hget => .inl hget, ?_, le_refl _, List.suffix_cons _ _⟩
    ⟨fun _ _ hget => .inl hget, ?_, ?_, fun _ hmem => .inl hmem,
      fun _ hmem hnot => absurd hmem hnot, ?_, fun hlisted => hlisted.cons trivial⟩ ?_ ?_
  · intro path other hget
    by_cases hpath : path = (p.slug result.workOrderId, p.subjectSlug signed)
    · rw [hpath]
      exact ⟨signed, hself⟩
    · exact ⟨other, (Dict.get?_set_ne w.registry.results signed hpath).trans hget⟩
  · intro path other hget
    by_cases hpath : path = (p.slug result.workOrderId, p.subjectSlug signed)
    · rw [hpath] at hget
      rw [hpath, ← Option.mem_unique hself hget]
      exact .inr ⟨(.head _), result, order, hverify, rfl, habout⟩
    · exact .inl ((Dict.get?_set_ne w.registry.results signed hpath).symm.trans hget)
  · intro name hmem
    rcases List.mem_cons.mp hmem with heq | hmem
    · rw [Event.recorded.inj heq]
      exact .inr ⟨_, signed, rfl, hself⟩
    · exact .inl hmem
  · intro other hmem
    cases hmem with
    | tail _ hmem => exact .inl hmem
  · intro other hmem
    rw [List.mem_singleton.mp hmem]
    exact ⟨hverify, habout, _, signed, rfl, hself⟩
  · nofun

/-- The marker of a resolved order is dropped. -/
theorem Inv.release (h : Inv p w)
    (hcall : w.calls.Perm (.publish signed result (.unmark order) :: rest)) :
    Inv p ((w.dropMarker (p.slug order.providerPeerId, p.slug result.workOrderId)).become
      rest) := by
  obtain ⟨_, ⟨file, hfile, hverify, hcounts, _⟩, hresolved⟩ := h.current hcall
  refine h.file [] hcall rfl
    ⟨fun _ _ hget => hget, fun _ _ hget => .inl hget, fun _ other hget => ⟨other, hget⟩, le_refl _,
      List.suffix_refl _⟩
    ⟨fun _ _ hget => .inl hget, fun _ _ hget => .inl hget, fun _ hmem => .inl hmem,
      fun _ hmem => .inl (Finset.mem_of_mem_erase hmem), ?_, fun _ hmem => .inl hmem,
      fun hlisted => hlisted⟩ ?_ ?_
  · intro marker hmem hnot signed' order' hproper
    have hshut : Shut p w order := by
      unfold counts at hcounts
      simp only [Bool.and_eq_true, decide_eq_true_eq] at hcounts
      unfold Shut orderName
      rw [← hcounts.1.1.2]
      exact .inr hresolved
    exact dropped_shut rest hverify hshut hfile hmem hnot hproper
  · intro other hmem
    cases hmem
  · intro other order' stage heq
    cases heq

/-- A listing drops a marker. -/
theorem Inv.discard (h : Inv p w) {start : List Event}
    (hcall : w.calls.Perm
      (.list filter start began markers records (.discard marker) :: rest)) :
    Inv p ((w.dropMarker marker).become
      (.list filter start began markers records .next :: rest)) := by
  have hfair : ListFair p w filter start began markers records (.discard marker) :=
    h.current hcall
  obtain ⟨signed, order, hproper, hshut⟩ := hfair.current
  have hgrows : Grows w ((w.dropMarker marker).become
      (.list filter start began markers records .next :: rest)) :=
    ⟨fun _ _ hget => hget, fun _ _ hget => .inl hget, fun _ other hget => ⟨other, hget⟩, le_refl _,
      List.suffix_refl _⟩
  refine h.file [.list filter start began markers records .next] hcall rfl hgrows
    ⟨fun _ _ hget => .inl hget, fun _ _ hget => .inl hget, fun _ hmem => .inl hmem,
      fun _ hmem => .inl (Finset.mem_of_mem_erase hmem), ?_, fun _ hmem => .inl hmem,
      fun hlisted => hlisted⟩ ?_ ?_
  · intro other hmem hnot signed' order' hproper'
    exact dropped_shut _ hproper.2.1 hshut hproper.1 hmem hnot hproper'
  · intro other hmem
    rw [List.mem_singleton.mp hmem]
    exact ListFair.mono { hfair with complete := hfair.complete, current := trivial } hgrows
  · nofun

/-- A listing returns its records. -/
theorem Inv.finish (h : Inv p w) {start : List Event}
    (hcall : w.calls.Perm (.list filter start began [] records .next :: rest)) :
    Inv p ((w.become rest).log (.listed filter start began w.now records)) := by
  have hfair : ListFair p w filter start began [] records .next := h.current hcall
  refine h.file [] hcall rfl
    ⟨fun _ _ hget => hget, fun _ _ hget => .inl hget, fun _ other hget => ⟨other, hget⟩, le_refl _,
      List.suffix_cons _ _⟩
    ⟨fun _ _ hget => .inl hget, fun _ _ hget => .inl hget, ?_, fun _ hmem => .inl hmem,
      fun _ hmem hnot => absurd hmem hnot, ?_, fun hlisted => hlisted.cons ?_⟩ ?_ ?_
  · intro name hmem
    cases hmem with
    | tail _ hmem => exact .inl hmem
  · intro other hmem
    cases hmem with
    | tail _ hmem => exact .inl hmem
  · refine ⟨hfair.past, hfair.returned, ?_⟩
    intro signed order hsubmitted hverify hopen hrecorded hpasses
    rcases hfair.complete signed order hsubmitted hverify with
      (hclosed | ⟨path, result, hname, hget⟩) | hfails | hmem | hmarker | hat
    · rw [hopen] at hclosed
      cases hclosed
    · have hpast := (h.results path result hget).1
      rw [hname] at hpast
      exact absurd hpast hrecorded
    · rw [hpasses] at hfails
      cases hfails
    · exact hmem
    · cases hmarker
    · cases hat
  · intro other hmem
    cases hmem
  · intro other order' stage heq
    cases heq

end Writing

/-! ### Reading steps -/

section Reading

variable {w : World}

/-- Time passes. -/
theorem Inv.tick (h : Inv p w) (hle : w.now ≤ now) : Inv p { w with now } := by
  refine h.step ⟨fun _ _ hget => hget, fun _ _ hget => .inl hget,
    fun _ other hget => ⟨other, hget⟩, hle, List.suffix_refl _⟩ (Sound.same rfl rfl)
    (fun _ hmem => .inl hmem) ?_
  intro signed order stage hstage hmem
  exact .inr ⟨stage, hstage, hmem⟩

/-- A listing begins with the markers it finds. -/
theorem Inv.list (h : Inv p w) (hglob : Globbed p w.registry filter markers)
    (hrange : filter.InRange w.now) : ListFair p w filter w.history w.now markers [] .next where
  past := List.suffix_refl _
  begun := le_refl _
  range := hrange
  proper := fun marker hmem => h.markers marker ((hglob.mem marker).mp hmem).1
  returned := nofun
  complete := by
    intro signed order hmem hverify
    obtain ⟨order', hverify', _, hmarker⟩ := h.submitted signed hmem
    rw [hverify] at hverify'
    rw [← Option.some.inj hverify'] at hmarker
    rcases hmarker with hmarker | hshut
    · by_cases hprovider : filter.providerPeerId = "" ∨
          (markerOf p order).1 = p.slug filter.providerPeerId
      · exact .inr (.inr (.inr (.inl ((hglob.mem _).mpr ⟨hmarker, hprovider⟩))))
      · refine .inr (.inl ?_)
        rw [not_or] at hprovider
        have hother : order.providerPeerId ≠ filter.providerPeerId := by
          intro heq
          refine hprovider.2 ?_
          rw [← heq]
          rfl
        unfold Filter.passes Filter.selects
        simp [hprovider.1, hother]
    · exact .inl hshut
  current := trivial

variable {reading : Reading}

/-- A submission decides about its marker. -/
theorem Inv.decide (h : Inv p w)
    (hcall : w.calls.Perm (.submit signed order (.scan reading) :: rest)) :
    SubmitFair p w signed order
      (if orderIsOpen p w.now order && latestStatus reading.found = "" then .mark
        else .unmark) := by
  obtain ⟨_, hfull, hsame, hfound⟩ := h.current hcall
  split
  · exact hfull
  rename_i hnot
  refine ⟨hfull, ?_⟩
  by_cases hopen : orderIsOpen p w.now order = true
  · right
    refine hfound.resolved ?_
    intro hnil
    refine hnot ?_
    rw [hopen, (latestStatus_eq_empty hfound.status).mpr hnil]
    rfl
  · rw [Bool.not_eq_true] at hopen
    exact .inl hopen

/-- `order_is_open` returns at the end of a submission. -/
theorem Inv.decide_returns (h : Inv p w)
    (hcall : w.calls.Perm (.submit signed order (.scan reading) :: rest)) :
    openRaises p order = false :=
  (h.timely (h.current hcall).2.1 (h.current hcall).1).1

section Listing

variable {filter : Filter} {start : List Event} {began : Rat} {markers : List Marker}
  {records : List Json} {marker : Marker} {signed : Json}

/-- The times of a proper order are read without an error. -/
theorem Inv.judge_returns (h : Inv p w)
    (hcall : w.calls.Perm
      (.list filter start began markers records (.judge marker signed order) :: rest)) :
    openRaises p order = false := by
  have hproper : Proper p w marker signed order := ListFair.current (h.current hcall)
  exact (h.timely hproper.1 hproper.2.1).1

/-- `record_within_age` returns in a listing. -/
theorem Inv.keep_returns (h : Inv p w)
    (hcall : w.calls.Perm
      (.list filter start began markers records (.scan marker signed reading) :: rest)) :
    filter.raises p w.now reading.order = false := by
  have hfair : ListFair p w filter start began markers records (.scan marker signed reading) :=
    h.current hcall
  obtain ⟨hproper, -⟩ := hfair.current
  exact (h.timely hproper.1 hproper.2.1).returns (InRange.mono hfair.begun hfair.range)

theorem Inv.submission (h : Inv p w) (hstart : start <:+ w.history) {order' : Order}
    {signed' : Json} (hproper : Proper p w marker signed order)
    (hsubmitted : .submitted signed' ∈ start) (hverify : p.verifyOrder signed' = some order')
    (hmarker : markerOf p order' = marker) : signed' = signed ∧ order' = order := by
  obtain ⟨submittedOrder, hverify', hfull, _⟩ :=
    h.submitted signed' (hstart.subset hsubmitted)
  rw [hverify] at hverify'
  rw [← Option.some.inj hverify'] at hfull
  have hname : orderName p order' = marker.2 := by
    rw [← hmarker]
    rfl
  rw [hname, hproper.1] at hfull
  have hsame : signed = signed' := OrderFile.full.inj (Option.some.inj hfull)
  refine ⟨hsame.symm, ?_⟩
  have horder := hproper.2.1
  rw [hsame, hverify] at horder
  exact Option.some.inj horder

/-- A proper marker leads to its order. -/
theorem examine_of_proper (hproper : Proper p w marker signed order) :
    examine p marker (w.registry.orders.get? marker.2) = .judge marker signed order := by
  unfold examine
  rw [hproper.1]
  simp only [hproper.2.1, if_pos hproper.2.2]

/-- A listing takes up its next marker. -/
theorem Inv.next (h : Inv p w) (success : Bool)
    (hfair : ListFair p w filter start began (marker :: markers) records .next)
    (hplain : success = true ∨ Spent p w marker.2) :
    ListFair p w filter start began markers records
      (examine p marker (if success then w.registry.orders.get? marker.2 else none)) := by
  obtain ⟨signed, order, hproper⟩ := hfair.proper marker (.head _)
  have hrest : ∀ other ∈ markers, ∃ signed order, Proper p w other signed order :=
    fun other hmem => hfair.proper other (.tail _ hmem)
  -- the order of this marker is looked at now, the others are in the list
  have hcomplete : ∀ stage : Listing, (stage.At signed ∨ Shut p w order) →
      ∀ signed' order', .submitted signed' ∈ start → p.verifyOrder signed' = some order' →
        Shut p w order' ∨ filter.passes p w.now order' = false ∨ signed' ∈ records ∨
          markerOf p order' ∈ markers ∨ stage.At signed' := by
    intro stage hstage signed' order' hsubmitted hverify
    rcases hfair.complete signed' order' hsubmitted hverify with
      hshut | hfails | hmem | hmarker | hat
    · exact .inl hshut
    · exact .inr (.inl hfails)
    · exact .inr (.inr (.inl hmem))
    · rcases List.mem_cons.mp hmarker with heq | hmarker
      · obtain ⟨hsigned, horder⟩ := h.submission hfair.past hproper hsubmitted hverify heq
        rw [hsigned, horder]
        rcases hstage with hat | hshut
        · exact .inr (.inr (.inr (.inr hat)))
        · exact .inl hshut
      · exact .inr (.inr (.inr (.inl hmarker)))
    · cases hat
  cases success with
  | true =>
    rw [if_pos rfl, examine_of_proper hproper]
    exact { hfair with proper := hrest, complete := hcomplete _ (.inl rfl), current := hproper }
  | false =>
    rcases hplain with htrue | hspent
    · cases htrue
    · have hshut := hspent signed order hproper.1 hproper.2.1
      exact { hfair with
        proper := hrest
        complete := hcomplete _ (.inr hshut)
        current := ⟨signed, order, hproper, hshut⟩ }

theorem ListFair.complete_of {stage' : Listing}
    (hfair : ListFair p w filter start began markers records stage)
    (hverify : p.verifyOrder signed = some order)
    (hat : ∀ signed', stage.At signed' → signed' = signed) {records' : List Json}
    (hkeep : ∀ other ∈ records, other ∈ records')
    (hdone : Shut p w order ∨ filter.passes p w.now order = false ∨ signed ∈ records' ∨
      stage'.At signed) :
    ∀ signed' order', .submitted signed' ∈ start → p.verifyOrder signed' = some order' →
      Shut p w order' ∨ filter.passes p w.now order' = false ∨ signed' ∈ records' ∨
        markerOf p order' ∈ markers ∨ stage'.At signed' := by
  intro signed' order' hsubmitted hverify'
  rcases hfair.complete signed' order' hsubmitted hverify' with
    hshut | hfails | hmem | hmarker | hstage
  · exact .inl hshut
  · exact .inr (.inl hfails)
  · exact .inr (.inr (.inl (hkeep signed' hmem)))
  · exact .inr (.inr (.inr (.inl hmarker)))
  · rw [hat signed' hstage, hverify] at hverify'
    rw [hat signed' hstage, ← Option.some.inj hverify']
    rcases hdone with hshut | hfails | hmem | hstage'
    · exact .inl hshut
    · exact .inr (.inl hfails)
    · exact .inr (.inr (.inl hmem))
    · exact .inr (.inr (.inr (.inr hstage')))

/-- A listing that goes on with the marker in hand, or is done with it. -/
theorem ListFair.move {stage' : Listing}
    (hfair : ListFair p w filter start began markers records stage)
    (hverify : p.verifyOrder signed = some order)
    (hat : ∀ signed', stage.At signed' → signed' = signed)
    (hdone : Shut p w order ∨ filter.passes p w.now order = false ∨ signed ∈ records ∨
      stage'.At signed) (hcurrent : StageFair p w start began stage') :
    ListFair p w filter start began markers records stage' :=
  { hfair with
    complete := hfair.complete_of hverify hat (fun _ hmem => hmem) hdone
    current := hcurrent }

/-- A listing judges an order by its age. -/
theorem Inv.judge (h : Inv p w)
    (hfair : ListFair p w filter start began markers records (.judge marker signed order)) :
    ListFair p w filter start began markers records
      (if orderIsOpen p w.now order then
        .scan marker signed ⟨order, resultPaths p w.registry order, []⟩
      else .discard marker) := by
  have hproper : Proper p w marker signed order := hfair.current
  have hat : ∀ signed', Listing.At signed' (.judge marker signed order) → signed' = signed :=
    fun signed' heq => heq.symm
  by_cases hopen : orderIsOpen p w.now order = true
  · rw [if_pos hopen]
    refine hfair.move hproper.2.1 hat (.inr (.inr (.inr rfl))) ⟨hproper, ⟨?_, ?_⟩,
      ⟨w.now, hfair.begun, le_refl _, hopen⟩, fun path hmem => resultPaths_isSome hmem, ?_⟩
    · nofun
    · intro hne
      exact absurd rfl hne
    · intro hrecorded
      have hname : marker.2 = orderName p order := by
        rw [← hproper.2.2]
        rfl
      exact .inr (h.listedPaths (hname ▸ hproper.1) hproper.2.1
        (h.recorded _ (hfair.past.subset hrecorded)))
  · rw [if_neg hopen]
    have hshut : Shut p w order := .inl (Bool.not_eq_true _ ▸ hopen)
    exact hfair.move hproper.2.1 hat (.inl hshut) ⟨signed, order, hproper, hshut⟩

/-- A listing reads one result more. -/
theorem Inv.scanList (h : Inv p w) {remaining : List ResultPath}
    (hfair : ListFair p w filter start began markers records (.scan marker signed reading))
    (hpath : reading.remaining = path :: remaining) (success : Bool)
    (hplain : success = true ∨ Spare p start reading remaining) :
    ListFair p w filter start began markers records (.scan marker signed
      ⟨reading.order, remaining, reading.found ++ readResultFile p w.now reading.order
        (if success then w.registry.results.get? path else none)⟩) := by
  obtain ⟨hproper, hfound, htime, hremaining, hrecorded⟩ := hfair.current
  rw [hpath] at hremaining hrecorded
  refine { hfair with
    complete := hfair.complete
    current := ⟨hproper, FoundFair.read h hfound path ?_ w.now, htime,
      fun other hmem => hremaining other (.tail _ hmem), ?_⟩ }
  · cases success with
    | true => exact .inr rfl
    | false => exact .inl rfl
  · intro hstart
    rcases hrecorded hstart with hne | ⟨other, hmem, hname⟩
    · exact .inl (by intro hnil; exact hne (List.append_eq_nil_iff.mp hnil).1)
    · rcases List.mem_cons.mp hmem with heq | hmem
      · cases success with
        | true =>
          left
          obtain ⟨result, hget⟩ := Option.isSome_iff_exists.mp
            (hremaining path (.head _))
          have hmarker : marker.2 = orderName p reading.order := by
            rw [← hproper.2.2]
            rfl
          have hread := (h.counted (hmarker ▸ hproper.1) hproper.2.1 (heq ▸ hname) hget).2 w.now
          intro hnil
          refine hread ?_
          rw [← hget]
          exact (List.append_eq_nil_iff.mp hnil).2
        | false =>
          rcases hplain with htrue | hne | hnot | hother
          · cases htrue
          · exact .inl (by intro hnil; exact hne (List.append_eq_nil_iff.mp hnil).1)
          · exact absurd hstart hnot
          · exact .inr hother
      · exact .inr ⟨other, hmem, hname⟩

/-- A listing keeps an open order. -/
theorem ListFair.keep
    (hfair : ListFair p w filter start began markers records (.scan marker signed reading))
    (hdone : reading.remaining = []) (hstatus : latestStatus reading.found = "") :
    ListFair p w filter start began markers
      (if filter.passes p w.now reading.order then records ++ [signed] else records) .next := by
  obtain ⟨hproper, hfound, htime, _, hrecorded⟩ := hfair.current
  have hat : ∀ signed', Listing.At signed' (.scan marker signed reading) → signed' = signed :=
    fun signed' heq => heq.symm
  by_cases hpasses : filter.passes p w.now reading.order = true
  · rw [if_pos hpasses]
    refine { hfair with
      returned := ?_
      complete := hfair.complete_of hproper.2.1 hat (fun _ hmem => List.mem_append_left _ hmem)
        (.inr (.inr (.inl (List.mem_append_right _ (.head _)))))
      current := trivial }
    intro other hmem
    rcases List.mem_append.mp hmem with hmem | hmem
    · exact hfair.returned other hmem
    · rw [List.mem_singleton.mp hmem]
      refine ⟨reading.order, hproper.2.1, htime, ?_⟩
      intro hstart
      rcases hrecorded hstart with hne | ⟨path, hmem, _⟩
      · exact hne ((latestStatus_eq_empty hfound.status).mp hstatus)
      · rw [hdone] at hmem
        cases hmem
  · rw [if_neg hpasses]
    rw [Bool.not_eq_true] at hpasses
    exact hfair.move hproper.2.1 hat (.inr (.inl hpasses)) trivial

/-- A listing leaves out a resolved order. -/
theorem ListFair.closed
    (hfair : ListFair p w filter start began markers records (.scan marker signed reading))
    (hstatus : latestStatus reading.found ≠ "") :
    ListFair p w filter start began markers records (.discard marker) := by
  obtain ⟨hproper, hfound, _⟩ := hfair.current
  have hat : ∀ signed', Listing.At signed' (.scan marker signed reading) → signed' = signed :=
    fun signed' heq => heq.symm
  have hshut : Shut p w reading.order := by
    refine .inr (hfound.resolved ?_)
    intro hnil
    exact hstatus ((latestStatus_eq_empty hfound.status).mpr hnil)
  exact hfair.move hproper.2.1 hat (.inl hshut) ⟨signed, reading.order, hproper, hshut⟩

end Listing

end Reading

/-! ### Steps and runs -/

section Moves

variable {w : World} {rest : List Call}

theorem Inv.submits (h : Inv p w) {stage stage' : Submit}
    (hcall : w.calls.Perm (.submit signed order stage :: rest))
    (hfair : SubmitFair p w signed order stage') (hlate : stage.Late → stage'.Late) :
    Inv p (w.become (.submit signed order stage' :: rest)) := by
  refine h.reads [.submit signed order stage'] hcall ?_ ?_
  · intro other hmem
    rw [List.mem_singleton.mp hmem]
    exact ⟨(h.current hcall).1, hfair⟩
  · intro other order' _ heq hstage
    cases heq
    exact ⟨stage', hlate hstage, (.head _)⟩

theorem Inv.lists (h : Inv p w) {start : List Event} {markers' : List Marker} {records' : List Json}
    {stage' : Listing}
    (hcall : w.calls.Perm (.list filter start began markers records stage :: rest))
    (hfair : ListFair p w filter start began markers' records' stage') :
    Inv p (w.become (.list filter start began markers' records' stage' :: rest)) := by
  refine h.reads [.list filter start began markers' records' stage'] hcall ?_ ?_
  · intro other hmem
    rw [List.mem_singleton.mp hmem]
    exact hfair
  · nofun

/-- A call raises before it wrote a marker. -/
theorem Inv.raises (h : Inv p w) (hcall : w.calls.Perm (call :: rest))
    (hearly : ∀ signed order stage, call = .submit signed order stage → ¬ stage.Late) :
    Inv p (w.become rest) := by
  refine h.reads [] hcall ?_ ?_
  · intro other hmem
    cases hmem
  · intro signed order stage heq hstage
    exact absurd hstage (hearly signed order stage heq)

end Moves

/-- **The step lemma.** -/
theorem Inv.step_preserves {kind : Kind} (h : Inv p w) (hstep : Step p w kind w')
    (hplain : kind.Plain) : Inv p w' := by
  cases hstep with
  | tick now hle => exact h.tick hle
  | submit signed hverify => exact h.start ⟨hverify, hplain⟩
  | publish signed hverify => exact h.start ⟨hverify, trivial⟩
  | list filter hglob => exact h.start (h.list hglob hplain)
  | create hcall hnone => exact h.create hcall hnone
  | «exists» hcall _ => exact h.submits hcall trivial (fun hlate => hlate)
  | write hcall => exact h.write hcall
  | check hcall hsame => exact h.submits hcall hsame (fun _ => trivial)
  | conflict hcall =>
    refine h.raises hcall ?_
    intro signed order stage heq hlate
    cases heq
    cases hlate
  | globSubmit hcall =>
    obtain ⟨_, hfull⟩ := h.current hcall
    refine h.submits hcall ⟨hfull, rfl, ?_, ?_⟩ (fun _ => trivial)
    · nofun
    · intro hne
      exact absurd rfl hne
  | scanSubmit hcall _ content hcontent =>
    obtain ⟨_, hfull, hsame, hfound⟩ := h.current hcall
    refine h.submits hcall ⟨hfull, hsame, ?_⟩ (fun _ => trivial)
    rw [hsame]
    exact FoundFair.read h hfound _ hcontent w.now
  | decideRaises hcall _ hraises => cases (h.decide_returns hcall).symm.trans hraises
  | judgeRaises hcall hraises => cases (h.judge_returns hcall).symm.trans hraises
  | keepRaises hcall _ _ hraises => cases (h.keep_returns hcall).symm.trans hraises
  | decide hcall _ =>
    refine h.submits hcall (h.decide hcall) ?_
    intro _
    split
    · trivial
    · trivial
  | mark hcall => exact h.mark hcall
  | unmark hcall => exact h.unmark hcall
  | @readOrder signed result rest hcall file order hfile horder hsame =>
    refine h.reads [.publish signed result (.write order)] hcall ?_ ?_
    · intro other hmem
      rw [List.mem_singleton.mp hmem]
      obtain ⟨hid, hrequester, hprovider⟩ := hplain
      obtain ⟨hsameId, hnetwork, hsameProvider, hsameRequester⟩ := hsame
      rw [hsameId] at hid
      rw [hsameRequester] at hrequester
      rw [hsameProvider] at hprovider
      refine ⟨(h.current hcall).1, file, hfile, horder, ?_, hid⟩
      unfold counts
      rw [hid, hrequester, hprovider]
      simp [hsameId, hnetwork, hsameProvider, hsameRequester]
    · nofun
  | refuse hcall =>
    refine h.raises hcall ?_
    nofun
  | record hcall => exact h.record hcall
  | release hcall => exact h.release hcall
  | next hcall success => exact h.lists hcall (h.next success (h.current hcall) hplain)
  | judge hcall => exact h.lists hcall (h.judge (h.current hcall))
  | scanList hcall hpath success =>
    exact h.lists hcall (h.scanList (h.current hcall) hpath success hplain)
  | keep hcall hdone hstatus _ =>
    exact h.lists hcall (ListFair.keep (h.current hcall) hdone hstatus)
  | closed hcall _ hstatus => exact h.lists hcall (ListFair.closed (h.current hcall) hstatus)
  | discard hcall => exact h.discard hcall
  | finish hcall => exact h.finish hcall

/-- **The run lemma.** -/
theorem Plain.inv (h : Plain p w) : Inv p w := by
  induction h with
  | initial =>
    refine ⟨?_, ?_, ?_, ?_, ?_, ?_, trivial⟩
    · intro name signed hget
      cases hget
    · intro path signed hget
      cases hget
    · intro name hmem
      cases hmem
    · intro marker hmem
      exact absurd hmem (Finset.notMem_empty _)
    · intro signed hmem
      cases hmem
    · intro call hmem
      cases hmem
  | step _ hstep hplain ih => exact ih.step_preserves hstep hplain

/-! ### Quiet worlds -/

/-- The status is empty exactly while no result counts. -/
theorem Inv.statusOf_eq_empty (h : Inv p w)
    (hfile : w.registry.orders.get? (orderName p order) = some (.full signed))
    (hverify : p.verifyOrder signed = some order) :
    statusOf p w.registry w.now order = "" ↔ ¬ Resolved w.registry (orderName p order) := by
  have hstatus : ∀ item ∈ (resultPaths p w.registry order).flatMap fun path =>
      readResultFile p w.now order (w.registry.results.get? path),
      item.2.status ∈ jobStatusValues := by
    intro item hmem
    obtain ⟨path, _, hread⟩ := List.mem_flatMap.mp hmem
    obtain ⟨result, _, hresult, _⟩ := mem_readResultFile.mp hread
    exact verifyResult_status hresult
  unfold statusOf
  rw [latestStatus_eq_empty hstatus, List.flatMap_eq_nil_iff]
  constructor
  · intro hnone hresolved
    obtain ⟨path, hpath, hname⟩ := h.listedPaths hfile hverify hresolved
    obtain ⟨result, hget⟩ := Option.isSome_iff_exists.mp (resultPaths_isSome hpath)
    have hread := hnone path hpath
    rw [hget] at hread
    exact (h.counted hfile hverify hname hget).2 w.now hread
  · intro hnot path hpath
    by_contra hne
    have hfair : FoundFair p w order [] := by
      refine ⟨?_, ?_⟩
      · nofun
      · intro hnil
        exact absurd rfl hnil
    have hfound := FoundFair.read h hfair path (.inr rfl) w.now
    exact hnot (hfound.resolved hne)

/-- What the scan makes of the order file of a marker. -/
def World.yield (p : Platform) (w : World) (filter : Filter) (marker : Marker) : Option Json :=
  scanned p w.registry filter w.now (w.registry.orders.get? marker.2)

/-- An open order that passes is listed. -/
theorem yield_of_proper (h : Inv p w) (hproper : Proper p w marker signed order)
    (hpasses : filter.passes p w.now order = true) (hshut : ¬ Shut p w order) :
    w.yield p filter marker = some signed := by
  have hname : marker.2 = orderName p order := by
    rw [← hproper.2.2]
    rfl
  unfold Shut at hshut
  rw [not_or, Bool.not_eq_false,
    ← h.statusOf_eq_empty (hname ▸ hproper.1) hproper.2.1] at hshut
  unfold World.yield scanned
  rw [hproper.1]
  simp only [hproper.2.1, hpasses, hshut.1, hshut.2]
  rfl

/-- Any other is not. -/
theorem yield_eq_none (h : Inv p w) (hproper : Proper p w marker signed order)
    (hnot : filter.passes p w.now order = false ∨ Shut p w order) :
    w.yield p filter marker = none := by
  have hname : marker.2 = orderName p order := by
    rw [← hproper.2.2]
    rfl
  have hempty := h.statusOf_eq_empty (hname ▸ hproper.1) hproper.2.1
  unfold World.yield scanned
  rw [hproper.1]
  simp only [hproper.2.1]
  rw [if_neg]
  simp only [Bool.and_eq_true, decide_eq_true_eq]
  intro ⟨⟨hpasses, hopen⟩, hstatus⟩
  rcases hnot with hfails | hclosed | hresolved
  · rw [hpasses] at hfails
    cases hfails
  · rw [hopen] at hclosed
    cases hclosed
  · exact hempty.mp hstatus hresolved

/-- What a listing is about to add for the marker in hand. -/
def Listing.pending (yield : Marker → Option Json) : Listing → List Json
  | .next => []
  | .judge marker _ _ => (yield marker).toList
  | .scan marker _ _ => (yield marker).toList
  | .discard _ => []

/-- How far a listing of `all` that runs alone has come. -/
inductive Progress (p : Platform) (w : World) (filter : Filter) (all : List Marker)
    (w' : World) : Prop
  | running (markers : List Marker) (records : List Json) (stage : Listing)
      (hcalls : w'.calls = [.list filter w.history w.now markers records stage])
      (hhistory : w'.history = w.history)
      (hall : records ++ stage.pending (w.yield p filter) ++ markers.filterMap (w.yield p filter) =
        all.filterMap (w.yield p filter))
  | done (hcalls : w'.calls = [])
      (hhistory : w'.history = .listed filter w.history w.now w.now
        (all.filterMap (w.yield p filter)) :: w.history)

structure AloneFair (p : Platform) (w : World) (filter : Filter) (all : List Marker)
    (w' : World) : Prop where
  orders : w'.registry.orders = w.registry.orders
  results : w'.registry.results = w.registry.results
  now : w'.now = w.now
  progress : Progress p w filter all w'

theorem AloneFair.yield_eq {all : List Marker} (h : AloneFair p w filter all w') (marker : Marker) :
    w'.yield p filter marker = w.yield p filter marker := by
  unfold World.yield scanned statusOf resultPaths
  rw [h.orders, h.results, h.now]

theorem perm_singleton_cons {α : Type} {a b : α} {rest : List α} (h : [a].Perm (b :: rest)) :
    b = a ∧ rest = [] := by
  have heq := List.perm_singleton.mp h.symm
  exact ⟨(List.cons.inj heq).1, (List.cons.inj heq).2⟩

theorem filterMap_cons_toList {α β : Type} (f : α → Option β) (a : α) (l : List α) :
    (a :: l).filterMap f = (f a).toList ++ l.filterMap f := by
  rw [List.filterMap_cons]
  cases f a with
  | none | some b => rfl

section Alone

variable {w w' : World} {filter : Filter} {all markers markers' : List Marker}
  {records records' : List Json} {stage stage' : Listing} {rest : List Call}

theorem AloneFair.moves (h : AloneFair p w filter all w') (hcall : w'.calls.Perm (call :: rest)) :
    rest = [] ∧ ∃ markers records stage,
      call = .list filter w.history w.now markers records stage ∧ w'.history = w.history ∧
      records ++ stage.pending (w.yield p filter) ++ markers.filterMap (w.yield p filter) =
        all.filterMap (w.yield p filter) := by
  cases h.progress with
  | running markers records stage hcalls hhistory hall =>
    rw [hcalls] at hcall
    obtain ⟨heq, hrest⟩ := perm_singleton_cons hcall
    exact ⟨hrest, markers, records, stage, heq, hhistory, hall⟩
  | done hcalls _ =>
    rw [hcalls] at hcall
    cases hcall.nil_eq

theorem AloneFair.goes_on (h : AloneFair p w filter all w') {filter' : Filter} {start : List Event}
    (hcall : w'.calls.Perm (.list filter' start began markers records stage :: rest)) {w'' : World}
    (horders : w''.registry.orders = w'.registry.orders)
    (hresults : w''.registry.results = w'.registry.results) (hnow : w''.now = w'.now)
    (hhistory : w''.history = w'.history)
    (hcalls : w''.calls = .list filter' start began markers' records' stage' :: rest)
    (hall : records' ++ stage'.pending (w'.yield p filter') ++
        markers'.filterMap (w'.yield p filter') =
      records ++ stage.pending (w'.yield p filter') ++ markers.filterMap (w'.yield p filter')) :
    AloneFair p w filter all w'' := by
  have hyield : w'.yield p filter = w.yield p filter := funext h.yield_eq
  obtain ⟨hrest, _, _, _, heq, hpast, hsum⟩ := h.moves hcall
  cases heq
  rw [hyield] at hall
  exact ⟨horders.trans h.orders, hresults.trans h.results, hnow.trans h.now,
    .running markers' records' stage' (by rw [hcalls, hrest]) (hhistory.trans hpast)
      (hall.trans hsum)⟩

/-- A listing that runs alone comes closer to the scan. -/
theorem AloneFair.step {w'' : World} {plain : Prop} (hinv : Inv p w')
    (h : AloneFair p w filter all w') (hstep : Step p w' (.file plain) w'') (hplain : plain) :
    AloneFair p w filter all w'' := by
  cases hstep with
  | next hcall success =>
    have hfair := hinv.current hcall
    obtain ⟨signed, order, hproper⟩ := ListFair.proper hfair _ (.head _)
    refine h.goes_on hcall rfl rfl rfl rfl rfl ?_
    rw [filterMap_cons_toList]
    cases success with
    | true =>
      rw [if_pos rfl, examine_of_proper hproper]
      simp [Listing.pending]
    | false =>
      rcases hplain with htrue | hspent
      · cases htrue
      · rw [yield_eq_none hinv hproper (.inr (hspent signed order hproper.1 hproper.2.1))]
        simp [Listing.pending, examine]
  | judgeRaises hcall hraises => cases (hinv.judge_returns hcall).symm.trans hraises
  | keepRaises hcall _ _ hraises => cases (hinv.keep_returns hcall).symm.trans hraises
  | @judge _ _ _ _ _ marker signed order _ hcall =>
    have hproper : Proper p w' marker signed order := ListFair.current (hinv.current hcall)
    refine h.goes_on hcall rfl rfl rfl rfl rfl ?_
    by_cases hopen : orderIsOpen p w'.now order = true
    · rw [if_pos hopen]
      rfl
    · rw [if_neg hopen]
      rw [Bool.not_eq_true] at hopen
      simp [Listing.pending, yield_eq_none hinv hproper (.inr (.inl hopen))]
  | scanList hcall _ _ => exact h.goes_on hcall rfl rfl rfl rfl rfl rfl
  | @keep filter' _ _ _ _ marker signed reading _ hcall hdone hstatus =>
    obtain ⟨hproper, hfound, ⟨time, hbegan, htime, hopen⟩, _, hrecorded⟩ :=
      ListFair.current (hinv.current hcall)
    refine h.goes_on hcall rfl rfl rfl rfl rfl ?_
    by_cases hpasses : filter'.passes p w'.now reading.order = true
    · have hshut : ¬ Shut p w' reading.order := by
        obtain ⟨_, _, _, _, heq, hpast, _⟩ := h.moves hcall
        cases heq
        intro hshut
        rcases hshut with hclosed | ⟨path, result, hname, hget⟩
        · rw [h.now, ← le_antisymm (h.now ▸ htime) hbegan, hopen] at hclosed
          cases hclosed
        · have hpastResult := (hinv.results path result hget).1
          rw [hname, hpast] at hpastResult
          rcases hrecorded hpastResult with hne | ⟨other, hmem, _⟩
          · exact hne ((latestStatus_eq_empty hfound.status).mp hstatus)
          · rw [hdone] at hmem
            cases hmem
      rw [if_pos hpasses]
      simp [Listing.pending, yield_of_proper hinv hproper hpasses hshut]
    · rw [if_neg hpasses]
      rw [Bool.not_eq_true] at hpasses
      simp [Listing.pending, yield_eq_none hinv hproper (.inl hpasses)]
  | @closed filter' _ _ _ _ marker signed reading _ hcall _ hstatus =>
    obtain ⟨hproper, hfound, _⟩ := ListFair.current (hinv.current hcall)
    refine h.goes_on hcall rfl rfl rfl rfl rfl ?_
    have hshut : Shut p w' reading.order := by
      refine .inr (hfound.resolved ?_)
      intro hnil
      exact hstatus ((latestStatus_eq_empty hfound.status).mpr hnil)
    simp [Listing.pending, yield_eq_none hinv hproper (.inr hshut)]
  | discard hcall => exact h.goes_on hcall rfl rfl rfl rfl rfl rfl
  | finish hcall =>
    obtain ⟨hrest, _, _, _, heq, hpast, hsum⟩ := h.moves hcall
    cases heq
    refine ⟨h.orders, h.results, h.now, .done hrest ?_⟩
    have hrecords := (List.append_nil _).symm.trans ((List.append_nil _).symm.trans hsum)
    rw [← hrecords, ← hpast, ← h.now]
    rfl
  | create hcall _ | «exists» hcall _ | write hcall | check hcall _ | conflict hcall
  | globSubmit hcall | scanSubmit hcall _ _ _ | decide hcall _ _ | decideRaises hcall _ _
  | mark hcall | unmark hcall | readOrder hcall _ _ _ | refuse hcall | record hcall
  | release hcall =>
    obtain ⟨_, _, _, _, heq, _⟩ := h.moves hcall
    cases heq

end Alone

def sampleOrder : Order := ⟨"wo_1", "requester", "provider", "llm.chat", "rynmesh-main", none, ""⟩

def sampleSigned : Json :=
  .obj [("payload", .obj [("kind", .str "work_order"), ("work_order_id", .str "wo_1"),
      ("requester_peer_id", .str "requester"), ("provider_peer_id", .str "provider"),
      ("capability", .str "llm.chat")]),
    ("public_key", .str "requester")]

def samplePlatform : Platform where
  slug id := id
  subjectSlug _ := "subject"
  strip text := text
  verifyOrder signed := if signed = sampleSigned then some sampleOrder else none
  readResult _ := none
  parseTime _ := none
  overflows _ := false
  nowIso _ := ""

def sampleMarker : Marker := ("provider", "wo_1")

/-- The order was submitted. -/
def sampleWorld : World :=
  ⟨⟨Dict.empty.set "wo_1" (.full sampleSigned), .empty, {sampleMarker}⟩, 0, [],
    [.submitted sampleSigned]⟩

theorem Plain.reachable (h : Plain p w) : Reachable p w := by
  induction h with
  | initial => exact .initial
  | step _ hstep _ ih => exact ih.step hstep

end Orders
