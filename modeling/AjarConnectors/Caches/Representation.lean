import AjarConnectors.Adsb.Parser
import AjarConnectors.Ais.Parser
import AjarConnectors.CarryForward.Sound
import AjarConnectors.Mavlink.Parser
import AjarConnectors.SapientEgress.Mapper

namespace AisModel

open HttpModel (Bytes)

namespace MmsiCache

variable {V : Type}

def cache (c : MmsiCache V) : Eviction.Cache Nat V := ⟨c.map, c.order⟩

/-- `entry`, and what is then written through the reference. -/
def write (fresh : V) (c : MmsiCache V) (mmsi : Nat) (f : V → V) : MmsiCache V :=
  (c.entry mmsi fresh).set mmsi (f ((c.entry mmsi fresh).value mmsi fresh))

/-- A cache with the vessels it inserted, after one more operation. -/
def logged (fresh : V) (s : List Nat × MmsiCache V) (op : Nat × (V → V)) : List Nat × MmsiCache V :=
  (s.1 ++ (if (s.2.get op.1).isNone then [op.1] else []), s.2.write fresh op.1 op.2)

end MmsiCache

inductive CarryOp where
  | pushRaw (raw : Bytes)
  | drainWith (tail : List Bytes)

def Carry.apply (c : Carry) : CarryOp → Carry
  | .pushRaw raw => (c.pushRaw raw).1
  | .drainWith tail => (c.drainWith tail).2.2

end AisModel

namespace AdsbModel

open HttpModel (Text Bytes)

namespace StateCache

def cache (c : StateCache) : Eviction.Cache Text Entry := ⟨c.map, c.order⟩

/-- `entry`, and what is then written through the reference. -/
def write (c : StateCache) (icao : Text) (f : Entry → Entry) : StateCache :=
  (c.entry icao).set icao (f ((c.entry icao).value icao))

/-- A cache with the aircraft it inserted, after one more operation. -/
def logged (s : List Text × StateCache) (op : Text × (Entry → Entry)) : List Text × StateCache :=
  (s.1 ++ (if (s.2.map op.1).isNone then [op.1] else []), s.2.write op.1 op.2)

end StateCache

inductive EntryOp where
  | pushRaw (raw : Bytes)
  | update (f : AircraftState → AircraftState)
  | drainPayload

def Entry.apply (e : Entry) : EntryOp → Entry
  | .pushRaw raw => { e with carry := (e.carry.pushRaw carryCaps List.length raw).1 }
  | .update f => { e with state := f e.state }
  | .drainPayload => e.drainPayload.2.2

end AdsbModel

namespace MavlinkModel

inductive VehicleOp where
  | carry (sysid : UInt8) (raw : Bytes)
  | mutate (sysid : UInt8) (f : VehicleState → VehicleState)
  | drain (sysid : UInt8)

def MavParser.apply (p : MavParser) : VehicleOp → MavParser
  | .carry sysid raw => p.carry sysid raw
  | .mutate sysid f => p.mutate sysid f
  | .drain sysid => (p.drain sysid).2.2

/-- The pending frames of every vehicle keep to the caps. -/
def VehiclesCapped (p : MavParser) : Prop :=
  ∀ sysid, CarryForward.Capped carryCaps List.length (p.vehicle sysid).carry

end MavlinkModel

namespace CachesProof

open CarryForward Eviction
open HttpModel (Text Bytes)

section

open AisModel

variable {V : Type}

theorem mmsi_write (fresh : V) (c : MmsiCache V) (mmsi : Nat) (f : V → V) :
    (c.write fresh mmsi f).cache = c.cache.write maxVessels mmsi fresh f := by
  have evicted : c.evict.cache = c.cache.evict maxVessels := by
    obtain ⟨map, order⟩ := c
    unfold MmsiCache.evict Cache.evict
    change (if maxVessels ≤ order.length then _ else _ : MmsiCache V).cache = if maxVessels ≤ order.length then _ else _
    split
    · cases order <;> rfl
    · rfl
  have entered : (c.entry mmsi fresh).cache = c.cache.entry maxVessels mmsi fresh := by
    unfold MmsiCache.entry Cache.entry
    rw [← evicted]
    change (if (c.map mmsi).isNone then _ else _ : MmsiCache V).cache = if (c.map mmsi).isNone then _ else _
    split <;> rfl
  unfold Cache.write
  rw [← entered]
  rfl

theorem mmsi_run (fresh : V) (ops : List (Nat × (V → V))) :
    ops.foldl (logged maxVessels fresh) ([], Cache.empty) =
      Prod.map id MmsiCache.cache (ops.foldl (MmsiCache.logged fresh) ([], {})) := by
  have step : ∀ (s : List Nat × MmsiCache V) (op : Nat × (V → V)),
      logged maxVessels fresh (Prod.map id MmsiCache.cache s) op =
        Prod.map id MmsiCache.cache (MmsiCache.logged fresh s op) := by
    intro s op
    exact Prod.ext rfl (mmsi_write fresh s.2 op.1 op.2).symm
  change ops.foldl (logged maxVessels fresh) (Prod.map id MmsiCache.cache ([], {})) = _
  exact List.foldl_hom (Prod.map id MmsiCache.cache) step

theorem mmsi_kept (fresh : V) (ops : List (Nat × (V → V))) :
    Kept maxVessels (ops.foldl (MmsiCache.logged fresh) ([], {})).1
      (ops.foldl (MmsiCache.logged fresh) ([], {})).2.cache := by
  have kept := foldl_kept (by decide) fresh ops (s := ([], Cache.empty)) (kept_empty : Kept maxVessels [] Cache.empty)
  rw [mmsi_run] at kept
  exact kept

theorem mmsi_values {fresh : V} {holds : V → Prop} (starts : holds fresh) {ops : List (Nat × (V → V))}
    (keeps : ∀ op ∈ ops, ∀ v, holds v → holds (op.2 v)) :
    AllValues holds (ops.foldl (MmsiCache.logged fresh) ([], {})).2.cache := by
  have all := foldl_values maxVessels starts keeps (s := ([], Cache.empty)) empty_values
  rw [mmsi_run] at all
  exact all

theorem carry_apply {c : Carry} (capped : Capped carryCaps List.length c) (op : CarryOp) :
    Capped carryCaps List.length (c.apply op) := by
  cases op with
  | pushRaw raw => exact pushRaw_capped capped raw
  | drainWith tail => exact capped_empty

theorem carry_capped (ops : List CarryOp) {c : Carry} (capped : Capped carryCaps List.length c) :
    Capped carryCaps List.length (ops.foldl Carry.apply c) := by
  induction ops generalizing c with
  | nil => exact capped
  | cons op ops ih => exact ih (carry_apply capped op)

end

section

open AdsbModel

theorem state_write (c : StateCache) (icao : Text) (f : Entry → Entry) :
    (c.write icao f).cache = c.cache.write maxAircraft icao {} f := by
  have evicted : c.evict.cache = c.cache.evict maxAircraft := by
    obtain ⟨map, order⟩ := c
    unfold StateCache.evict Cache.evict
    change (if maxAircraft ≤ order.length then _ else _ : StateCache).cache = if maxAircraft ≤ order.length then _ else _
    split
    · cases order <;> rfl
    · rfl
  have entered : (c.entry icao).cache = c.cache.entry maxAircraft icao {} := by
    unfold StateCache.entry Cache.entry
    rw [← evicted]
    change (if (c.map icao).isNone then _ else _ : StateCache).cache = if (c.map icao).isNone then _ else _
    split <;> rfl
  unfold Cache.write
  rw [← entered]
  rfl

theorem state_run (ops : List (Text × (Entry → Entry))) :
    ops.foldl (logged maxAircraft {}) ([], Cache.empty) =
      Prod.map id StateCache.cache (ops.foldl StateCache.logged ([], {})) := by
  have step : ∀ (s : List Text × StateCache) (op : Text × (Entry → Entry)),
      logged maxAircraft {} (Prod.map id StateCache.cache s) op = Prod.map id StateCache.cache (StateCache.logged s op) := by
    intro s op
    exact Prod.ext rfl (state_write s.2 op.1 op.2).symm
  change ops.foldl (logged maxAircraft {}) (Prod.map id StateCache.cache ([], {})) = _
  exact List.foldl_hom (Prod.map id StateCache.cache) step

theorem state_kept (ops : List (Text × (Entry → Entry))) :
    Kept maxAircraft (ops.foldl StateCache.logged ([], {})).1 (ops.foldl StateCache.logged ([], {})).2.cache := by
  have kept := foldl_kept (by decide) {} ops (s := ([], Cache.empty)) (kept_empty : Kept maxAircraft [] Cache.empty)
  rw [state_run] at kept
  exact kept

theorem state_values {holds : Entry → Prop} (starts : holds {}) {ops : List (Text × (Entry → Entry))}
    (keeps : ∀ op ∈ ops, ∀ e, holds e → holds (op.2 e)) :
    AllValues holds (ops.foldl StateCache.logged ([], {})).2.cache := by
  have all := foldl_values maxAircraft starts keeps (s := ([], Cache.empty)) empty_values
  rw [state_run] at all
  exact all

theorem entry_apply {e : Entry} (capped : Capped carryCaps List.length e.carry) (op : EntryOp) :
    Capped carryCaps List.length (e.apply op).carry := by
  cases op with
  | pushRaw raw => exact pushRaw_capped capped raw
  | update f => exact capped
  | drainPayload => exact capped_empty

theorem entry_capped (ops : List EntryOp) {e : Entry} (capped : Capped carryCaps List.length e.carry) :
    Capped carryCaps List.length (ops.foldl Entry.apply e).carry := by
  induction ops generalizing e with
  | nil => exact capped
  | cons op ops ih => exact ih (entry_apply capped op)

end

section

open MavlinkModel

theorem vehicle_set {p : MavParser} (capped : VehiclesCapped p) (sysid : UInt8) {v : Vehicle}
    (kept : Capped carryCaps List.length v.carry) : VehiclesCapped (p.set sysid v) := by
  intro other
  change Capped carryCaps List.length ((Function.update p.vehicles sysid (some v) other).getD {}).carry
  by_cases same : other = sysid
  · subst same
    rw [Function.update_self]
    exact kept
  · rw [Function.update_of_ne same]
    exact capped other

theorem vehicle_apply {p : MavParser} (capped : VehiclesCapped p) (op : VehicleOp) : VehiclesCapped (p.apply op) := by
  cases op with
  | carry sysid raw => exact vehicle_set capped sysid (pushRaw_capped (capped sysid) raw)
  | mutate sysid f => exact vehicle_set capped sysid (capped sysid)
  | drain sysid => exact vehicle_set capped sysid capped_empty

theorem vehicles_capped (ops : List VehicleOp) {p : MavParser} (capped : VehiclesCapped p) :
    VehiclesCapped (ops.foldl MavParser.apply p) := by
  induction ops generalizing p with
  | nil => exact capped
  | cons op ops ih => exact ih (vehicle_apply capped op)

end

/-- After any operations, every cache lists its latest keys in the order of their insertion, and every buffer keeps its
    count and its caps. -/
theorem caches_keep_representation :
    (∀ (V : Type) (fresh : V) (ops : List (Nat × (V → V))),
      let s := ops.foldl (AisModel.MmsiCache.logged fresh) ([], {})
      Kept AisModel.maxVessels s.1 s.2.cache) ∧
    (∀ ops : List (Nat × List AisModel.CarryOp),
      let s := (ops.map fun op => (op.1, fun c => op.2.foldl AisModel.Carry.apply c)).foldl
        (AisModel.MmsiCache.logged {}) ([], {})
      Kept AisModel.maxVessels s.1 s.2.cache ∧ AllValues (Capped AisModel.carryCaps List.length) s.2.cache) ∧
    (∀ ops : List (Text × List AdsbModel.EntryOp),
      let s := (ops.map fun op => (op.1, fun e => op.2.foldl AdsbModel.Entry.apply e)).foldl
        AdsbModel.StateCache.logged ([], {})
      Kept AdsbModel.maxAircraft s.1 s.2.cache ∧
        AllValues (fun e => Capped AdsbModel.carryCaps List.length e.carry) s.2.cache) ∧
    (∀ (sourceId : String) (hostility : Option String) (ops : List MavlinkModel.VehicleOp),
      MavlinkModel.VehiclesCapped (ops.foldl MavlinkModel.MavParser.apply { sourceId := sourceId, hostility := hostility })) ∧
    (∀ reports : List (String × String),
      let s := reports.foldl SapientEgressModel.Mapper.logged ([], {})
      Kept SapientEgressModel.maxObjects s.1 s.2.cache) := by
  refine ⟨fun V fresh ops => mmsi_kept fresh ops, ?_, ?_, ?_, ?_⟩
  · intro ops
    refine ⟨mmsi_kept _ _, mmsi_values capped_empty ?_⟩
    intro op member carry capped
    obtain ⟨source, _, rfl⟩ := List.mem_map.mp member
    exact carry_capped source.2 capped
  · intro ops
    refine ⟨state_kept _, state_values capped_empty ?_⟩
    intro op member entry capped
    obtain ⟨source, _, rfl⟩ := List.mem_map.mp member
    exact entry_capped source.2 capped
  · intro sourceId hostility ops
    exact vehicles_capped ops fun sysid => capped_empty
  · intro reports
    exact SapientEgressProof.reports_kept reports SapientEgressProof.mapper_starts

end CachesProof
