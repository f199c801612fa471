import Playfield.Proofs.Device.Inventory
import Playfield.Proofs.Platform.Listing
import Playfield.Proofs.Platform.Rules
import Playfield.Settings

/-! The devices of a platform. Whatever settings a platform is started with and whatever is asked of it then,
each device is in its place in the inventory, and its number is one that bulk disables and listings of the
switches go through. -/
namespace Playfield

namespace Platform

variable {p q : Platform}

/-- Every device is in its place, and the switches of switch devices are known. -/
structure Stocked (p : Platform) : Prop where
  proper : p.devices.Proper
  known : ∀ kind name d, p.devices.Holds kind name d → ∀ n, d.number? .switch = some n → n ∈ p.switches.slots

namespace Stocked

variable (h : p.Stocked)

include h

theorem keep (hd : q.devices = p.devices) (hs : ∀ n ∈ p.switches.slots, n ∈ q.switches.slots) :
    q.Stocked where
  proper := hd ▸ h.proper
  known := fun kind name d hh n hn => hs n (h.known kind name d (hd ▸ hh) n hn)

theorem register {r : DeviceRequest} {d : Device} (hv : r.validate = .ok d)
    (hs : q.switches = (d.number? .switch).elim p.switches p.switches.touch)
    (hd : q.devices = (p.devices.register d).2) : q.Stocked where
  proper := by
    rw [hd]
    exact h.proper.register (DeviceRequest.proper hv)
  known := by
    intro kind name e he n hn
    rw [hd, Inventory.holds_register] at he
    -- The new device names its switch; the switches of all others were known before.
    split at he
    · subst he
      rw [hs, hn]
      exact (SwitchRegistry.mem_touch ..).mpr (.inl rfl)
    · have hold := h.known kind name e he n hn
      rw [hs]
      cases d.number? .switch with
      | none => exact hold
      | some s => exact (SwitchRegistry.mem_touch ..).mpr (.inr hold)

theorem step {task : Task} {me : TaskId} {now : Nat}
    (hs : ∀ n ∈ p.switches.slots, n ∈ (task.step me now p).2.switches.slots) :
    (task.step me now p).2.Stocked := by
  by_cases hstart : ∃ call, task = .start call
  · obtain ⟨call, rfl⟩ := hstart
    have he := Task.enter_entered call me p
    change ∀ n ∈ p.switches.slots, n ∈ (Task.enter call me p).2.switches.slots at hs
    change (Task.enter call me p).2.Stocked
    generalize Task.enter call me p = result at he hs ⊢
    cases he with
    | served hserved =>
      cases hserved with
      | declares hv => exact h.register hv rfl rfl
      | _ => exact h.keep rfl hs
    | _ => exact h.keep rfl hs
  · exact h.keep (Task.tables_onward fun call hc => hstart ⟨call, hc⟩).devices hs

end Stocked

theorem Stocked.next {w : World Platform Task Outcome} (h : w.state.Stocked) (hl : Lists w)
    (e : Event Call Outside) : (scene.next w e).state.Stocked := by
  cases e with
  | call call => exact h
  | step id =>
      change (w.step Task.workings id).state.Stocked
      rcases World.state_step Task.workings w id with hw | ⟨task, hr, hw⟩
      · rwa [hw]
      · rw [hw]
        exact h.step fun n hn => (Task.switches_step hl.numbered (hl.visits id task hr)).mpr (.inl hn)
  | abandon id =>
      change (w.abandon Task.workings id).state.Stocked
      obtain ⟨-, hw⟩ | ⟨task, hr, hw⟩ := World.abandon_cases Task.workings w id
      · rwa [hw]
      · rw [hw]
        have hs (n : SwitchNumber) : n ∈ (task.abandon id w.state).switches.slots ↔ n ∈ w.state.switches.slots :=
          Task.switches_abandon (hl.visits id task hr)
        exact h.keep Task.tables_abandon.devices fun n hn => (hs n).mpr hn
  | pass ms => exact h
  | outside e =>
      exact h.keep (tables_outside e w.state).devices fun n hn => switches_outside e w.state ▸ hn

theorem Idle.run_stocked (hp : p.Idle) (hs : p.Stocked) (events : List (Event Call Outside)) :
    (scene.run (.ofState p) events).state.Stocked := by
  have hboth : Lists (scene.run (.ofState p) events) ∧ (scene.run (.ofState p) events).state.Stocked :=
    scene.run_invariant (P := fun w => Lists w ∧ w.state.Stocked)
      (fun _ e h => ⟨h.1.next e, h.2.next h.1 e⟩) ⟨hp.lists, hs⟩ events
  exact hboth.2

/-- What every declaration does to a platform, all of them do. -/
theorem foldlM_relates {α β : Type} {declare : Platform → α → Except PlatformError (β × Platform)}
    {R : Platform → Platform → Prop} (hrefl : ∀ p, R p p) (htrans : ∀ {p q r}, R p q → R q r → R p r)
    (hdeclare : ∀ {p a b q}, declare p a = .ok (b, q) → R p q) {l : List α}
    (h : l.foldlM (fun p a => return (← declare p a).2) p = .ok q) : R p q := by
  induction l generalizing p with
  | nil =>
      cases h
      exact hrefl _
  | cons a l ih =>
      rw [List.foldlM_cons] at h
      refine of_bind h fun p' hp' h => ?_
      refine of_bind hp' fun declared hd hp' => ?_
      cases hp'
      exact htrans (hdeclare hd) (ih h)

/-- What devices and rules that are declared at the start come to: away from the inventory and the rules,
nothing happens, and the inventory stays in order. -/
structure Prepares (p q : Platform) : Prop where
  apart : p.Apart q
  quiet : p.Quiet q
  stocked : p.Stocked → q.Stocked

namespace Prepares

variable {r : Platform}

theorem refl (p : Platform) : p.Prepares p := ⟨.refl p, .refl p, id⟩

theorem trans (h : p.Prepares q) (h' : q.Prepares r) : p.Prepares r :=
  ⟨h.apart.trans h'.apart, h.quiet.trans h'.quiet, fun hp => h'.stocked (h.stocked hp)⟩

theorem registerDevice {request : DeviceRequest} {d : Device}
    (h : p.registerDevice request = .ok (d, q)) : p.Prepares q := by
  have hserves := serves_registerDevice h
  refine ⟨hserves.apart, .of_serves hserves, fun hp => ?_⟩
  cases hserves with
  | declares hv => exact hp.register hv rfl rfl

theorem configureRule {request : RuleRequest} {rule : HardwareRule}
    (h : p.configureRule request = .ok (rule, q)) : p.Prepares q := by
  have hserves := serves_configureRule h
  refine ⟨hserves.apart, .of_serves hserves, fun hp => ?_⟩
  cases hserves with
  | configures => exact hp.keep rfl fun n hn => (SwitchRegistry.mem_touch ..).mpr (.inr hn)

theorem furnish {s : Settings} (h : s.furnish p = .ok q) : p.Prepares q := by
  refine of_bind h fun q hdevices hrules => ?_
  exact (foldlM_relates refl trans registerDevice hdevices).trans
    (foldlM_relates refl trans configureRule hrules)

end Prepares

section Start

variable {config : PlatformConfig} {board : BoardConfig} {clock : Clock} {startedAt : Timestamp}

theorem stocked_ofConfig : (ofConfig config (.ofConfig board) clock startedAt).Stocked where
  proper := Inventory.proper_empty
  known := by
    intro kind name d hd
    simp [ofConfig, Inventory.Holds, Inventory.ofKind, Inventory.empty] at hd

theorem Prepares.idle (h : (ofConfig config (.ofConfig board) clock startedAt).Prepares p) : p.Idle where
  lists := by
    have hdesk (s : SwitchNumber) : (World.ofState p : World Platform Task Outcome).desk s = .atRest s := by
      rw [← desk_atRest config board clock startedAt s]
      exact h.apart.desk s _
    refine ⟨⟨World.sound_ofState p, fun n => ?_, fun s => ?_⟩, fun id task hr => ?_⟩
    · exact congrArg (·.switch.number) (hdesk n)
    · rw [hdesk s]
      exact SwitchDesk.manned_atRest s
    · simp [World.ofState] at hr
  good := by
    refine (Worksite.good_atRest config.policy board).reaches ?_
    rw [← worksite_atRest config board clock startedAt]
    exact Worksite.reaches_of_quiet h.quiet

end Start

theorem number_of_kind {d : Device} {kind : Kind} (h : d.Proper) (hk : d.kind = kind) :
    ∃ n, d.number? kind = some n ∧ n.text = d.number :=
  ⟨⟨d.number, h.number⟩, Device.number?_eq_some.mpr ⟨hk, rfl⟩, rfl⟩

/-- A bulk disable addresses every coil device that carries its tag, and without a tag every coil device. -/
theorem Stocked.mem_disableTargets (h : p.Stocked) {kind : Kind} {name : String} {d : Device}
    (hd : p.devices.Holds kind name d) {r : BulkDisableRequest}
    (hr : ∀ tag, r.tag = some tag → d.hasTag tag = true) {c : CoilNumber} (hc : d.number? .coil = some c) :
    c ∈ p.disableTargets r := by
  obtain ⟨hk, -⟩ := Device.number?_eq_some.mp hc
  have hplace : p.devices.Holds d.kind d.name d := by
    rwa [h.proper.kind _ _ _ hd, h.proper.name _ _ _ hd]
  simp only [disableTargets, Std.ExtTreeSet.mem_toList]
  cases ht : r.tag with
  | none =>
      rw [Std.ExtTreeSet.mem_ofList, List.contains_iff_mem]
      refine List.mem_append_right _ (List.mem_filterMap.mpr ⟨d, ?_, hc⟩)
      exact h.proper.mem_query.mpr ⟨hplace, by simp [hk], rfl, rfl⟩
  | some tag =>
      rw [Std.ExtTreeSet.mem_ofList, List.contains_iff_mem]
      refine List.mem_filterMap.mpr ⟨d, ?_, hc⟩
      exact h.proper.mem_query.mpr ⟨hplace, by simp [hk], hr tag ht, rfl⟩

/-- What holds of the devices after the run of `events`. -/
structure KeepsDevices (p : Platform) (events : List (Event Call Outside)) : Prop where
  /-- Every device is stored under its own kind and name, and is as its check has made it. -/
  placed : ∀ kind name d, (scene.run (.ofState p) events).state.devices.Holds kind name d →
    d.kind = kind ∧ d.name = name ∧ d.Proper
  /-- As a device of its own kind, and of no other, it has its number. -/
  numbered : ∀ kind name d, (scene.run (.ofState p) events).state.devices.Holds kind name d →
    ∀ k, ((d.number? k).isSome = true ↔ k = d.kind) ∧ ∀ n, d.number? k = some n → n.text = d.number
  /-- No two devices of one kind have one name. -/
  single : (scene.run (.ofState p) events).state.devices.toList.Pairwise
    fun d e => d.kind ≠ e.kind ∨ d.name ≠ e.name
  /-- A bulk disable that began now would address every coil device with its tag. -/
  addressed : ∀ kind name d r, (scene.run (.ofState p) events).state.devices.Holds kind name d →
    d.kind = .coil → (∀ tag, r.tag = some tag → d.hasTag tag = true) →
    ∃ c ∈ (scene.run (.ofState p) events).state.disableTargets r, c.text = d.number
  /-- A bulk disable that has succeeded has gone through every such device that was stored when it began. -/
  disabled : ∀ (id : TaskId) (r : BulkDisableRequest) (a : Answer),
    (calls events)[id]? = some (.disableCoils r) →
    (scene.run (.ofState p) events).results[id]? = some (.ok a) →
    ∃ before coils, Began p events before id (.disableCoils r) ∧ a = .coils coils ∧
      ∀ kind name d, (scene.run (.ofState p) before).state.devices.Holds kind name d → d.kind = .coil →
        (∀ tag, r.tag = some tag → d.hasTag tag = true) → ∃ k ∈ coils, k.number.text = d.number
  /-- The switches of the switch devices are known. -/
  known : ∀ kind name d, (scene.run (.ofState p) events).state.devices.Holds kind name d →
    d.kind = .switch → ∃ n ∈ (scene.run (.ofState p) events).state.switches.known, n.text = d.number
  /-- Whoever lists the switches gets those of all the switch devices that were stored when the call began. -/
  listed : ∀ (id : TaskId) (r : Outcome), (calls events)[id]? = some .switches →
    (scene.run (.ofState p) events).results[id]? = some r →
    ∃ before found, Began p events before id .switches ∧ r = .ok (.switches found) ∧
      ∀ kind name d, (scene.run (.ofState p) before).state.devices.Holds kind name d → d.kind = .switch →
        ∃ x ∈ found, x.number.text = d.number

/-- However a platform was set up and whatever was asked of it since, its devices are in order. -/
theorem keeps_devices {s : Settings} {config : PlatformConfig} {board : BoardConfig} {clock : Clock}
    {startedAt : Timestamp} (h : s.furnish (.ofConfig config (.ofConfig board) clock startedAt) = .ok p)
    (events : List (Event Call Outside)) : p.KeepsDevices events := by
  have hprepares := Prepares.furnish h
  have hp : p.Idle := hprepares.idle
  have hstocked := hp.run_stocked (hprepares.stocked stocked_ofConfig)
  have haddressed (before : List (Event Call Outside)) (kind : Kind) (name : String) (d : Device)
      (r : BulkDisableRequest) (hd : (scene.run (.ofState p) before).state.devices.Holds kind name d)
      (hk : d.kind = .coil) (hr : ∀ tag, r.tag = some tag → d.hasTag tag = true) :
      ∃ c ∈ (scene.run (.ofState p) before).state.disableTargets r, c.text = d.number := by
    obtain ⟨c, hc, htext⟩ := number_of_kind ((hstocked before).proper.device _ _ _ hd) hk
    exact ⟨c, (hstocked before).mem_disableTargets hd hr hc, htext⟩
  have hknown (before : List (Event Call Outside)) (kind : Kind) (name : String) (d : Device)
      (hd : (scene.run (.ofState p) before).state.devices.Holds kind name d) (hk : d.kind = .switch) :
      ∃ n ∈ (scene.run (.ofState p) before).state.switches.known, n.text = d.number := by
    obtain ⟨n, hn, htext⟩ := number_of_kind ((hstocked before).proper.device _ _ _ hd) hk
    exact ⟨n, SwitchRegistry.mem_known.mpr ((hstocked before).known _ _ _ hd n hn), htext⟩
  have hproper := (hstocked events).proper
  refine ⟨fun kind name d hd => ?_, fun kind name d hd k => ?_, hproper.pairwise_toList,
    fun kind name d r => haddressed events kind name d r, fun id r a hc hr => ?_, hknown events,
    fun id r hc hr => ?_⟩
  · exact ⟨hproper.kind _ _ _ hd, hproper.name _ _ _ hd, hproper.device _ _ _ hd⟩
  · exact ⟨(hproper.device _ _ _ hd).isSome_number?, fun n hn => (Device.number?_eq_some.mp hn).2⟩
  · obtain ⟨before, hbegan, -, hanswer⟩ := sweep_ends hp events hc hr (.inr ⟨r, rfl⟩)
    obtain ⟨coils, rfl, hcoils⟩ := hanswer r a rfl rfl
    refine ⟨before, coils, hbegan, rfl, fun kind name d hd hk htag => ?_⟩
    obtain ⟨c, hc, htext⟩ := haddressed before kind name d r hd hk htag
    have hc' : c ∈ coils.map (·.number) := by
      rw [hcoils]
      exact hc
    obtain ⟨k, hk, rfl⟩ := List.mem_map.mp hc'
    exact ⟨k, hk, htext⟩
  · obtain ⟨before, found, hbegan, rfl, hfound⟩ := survey_answers hp events hc hr
    refine ⟨before, found, hbegan, rfl, fun kind name d hd hk => ?_⟩
    obtain ⟨n, hn, htext⟩ := hknown before kind name d hd hk
    obtain ⟨x, hx, rfl⟩ := List.mem_map.mp (hfound.symm ▸ hn)
    exact ⟨x, hx, htext⟩

/-- A coil device and a switch device, given with blanks and capitals. -/
def furnished : Settings :=
  { Settings.default with devices := [⟨.coil, " Left Flipper ", "C1", some " ", ["Flipper", "\t"]⟩,
      ⟨.switch, "RAMP", "S1", none, []⟩] }

/-- The coil device gets another number, a device without a name is refused, and the flippers are disabled. -/
def refurnishes : List (Event Call Outside) :=
  [.call (.registerDevice ⟨.coil, "left FLIPPER", "C2", none, ["FLIPPER "]⟩), .step 0,
    .call (.registerDevice ⟨.light, " ", "L1", none, []⟩), .step 1,
    .call (.disableCoils ⟨some "Flipper"⟩), .step 2, .step 2, .step 2, .step 2]

theorem keeps_devices_refurnished :
    ∃ p, furnished.furnish (.ofConfig .default (.ofConfig .default) ⟨0⟩ ⟨0, 0, 0⟩) = .ok p ∧
    (let w := scene.run (.ofState p) refurnishes
    (w.state.devices.toList.map fun d => (d.name, d.number)) = [("ramp", "S1"), ("left flipper", "C2")] ∧
      w.results[2]? = some (.ok (.coils [.disabled ⟨"C2", by decide⟩]))) ∧
    p.KeepsDevices refurnishes := by
  let rest := ofConfig .default (.ofConfig .default) ⟨0⟩ ⟨0, 0, 0⟩
  have hfacts : (furnished.furnish rest).toOption.map (fun p =>
      let w := scene.run (.ofState p) refurnishes
      (w.state.devices.toList.map fun d => (d.name, d.number), w.results[2]?)) =
      some ([("ramp", "S1"), ("left flipper", "C2")],
        some (.ok (.coils [.disabled ⟨"C2", by decide⟩]))) := by
    decide +kernel
  obtain ⟨p, hp, hend⟩ := Option.map_eq_some_iff.mp hfacts
  have hfurnished := Task.toOption_eq_some.mp hp
  exact ⟨p, hfurnished, Prod.mk.inj hend, keeps_devices hfurnished refurnishes⟩

end Platform
end Playfield
