import Hal9000.Fat32.FreeCluster

set_option autoImplicit false

namespace Hal9000.Fat32

open Lib (Program)
open Lib.Program (fail stop require attempt Returns Fails Stops)

-- What the format asks of a volume and FatInitVolume does not look at: FSINFO and the FAT lie one behind
-- the other before the data, a sector is made of whole entries, and a cluster number is never a mark.
structure Fat32Volume (fatData : FatData) : Prop where
  accepted : Accepted fatData
  whole : 4 ∣ fatData.bytesPerSector
  information : 2 ≤ fatData.reservedSectors
  table : fatData.reservedSectors * fatData.bytesPerSector + 4 * (fatData.countOfClusters + 2) ≤
    fatData.firstDataSector * fatData.bytesPerSector
  numbers : fatData.countOfClusters + 2 ≤ fat32BadCluster

def IsCluster (fatData : FatData) (cluster : Nat) : Prop :=
  2 ≤ cluster ∧ cluster < fatData.countOfClusters + 2

def fsInfoOf (fatData : FatData) (bytes : Lib.Memory) : Lib.Memory := bytes.slice (1 * fatData.bytesPerSector) sizeofFsInfo

structure AllowedInfo (fatData : FatData) (bytes : Lib.Memory) : Prop where
  count : freeCount (fsInfoOf fatData bytes) = fat32Unknown ∨
    freeCount (fsInfoOf fatData bytes) ≤ fatData.countOfClusters
  hint : nxtFree (fsInfoOf fatData bytes) = fat32Unknown ∨ IsCluster fatData (nxtFree (fsInfoOf fatData bytes))

structure EndsChain (fatData : FatData) (bytes : Lib.Memory) (last : Nat) : Prop where
  valid : IsCluster fatData last
  mark : fat32BadCluster ≤ link fatData bytes last

def freeClusters (fatData : FatData) (bytes : Lib.Memory) : Nat :=
  (List.range' 2 fatData.countOfClusters).countP (isFree fatData bytes)

structure Relinked (fatData : FatData) (before after : Lib.Memory) (cluster value : Nat) : Prop where
  link : link fatData after cluster = value
  reserved : fatEntry fatData after cluster / 2 ^ 28 = fatEntry fatData before cluster / 2 ^ 28

structure LinkedBehind (fatData : FatData) (before after : Lib.Memory) (last cluster : Nat) : Prop where
  valid : IsCluster fatData cluster
  free : isFree fatData before cluster = true
  marked : Relinked fatData before after cluster fat32EocMark
  linked : Relinked fatData before after last cluster
  frame : forall other, other < fatData.countOfClusters + 2 -> other ≠ cluster -> other ≠ last ->
    fatEntry fatData after other = fatEntry fatData before other

-- What a call of _AddNewClusterToChain is to leave behind.
structure Atomic (fatData : FatData) (before : Lib.Memory) (last : Nat) (result : Except Status Nat)
    (after : Lib.Memory) : Prop where
  linked : (∃ cluster, result = .ok cluster) ↔ ∃ cluster, LinkedBehind fatData before after last cluster
  entries : forall code, result = .error code -> forall cluster, cluster < fatData.countOfClusters + 2 ->
    fatEntry fatData after cluster = fatEntry fatData before cluster
  information : forall code, result = .error code -> forall place, place < sizeofFsInfo ->
    ¬ (fsiFreeCount ≤ place ∧ place < fsiNxtFree + 4) ->
    after (1 * fatData.bytesPerSector + place) = before (1 * fatData.bytesPerSector + place)
  full : freeClusters fatData before = 0 -> result = .error .diskFull
  counted : freeCount (fsInfoOf fatData before) = freeClusters fatData before ∨
      freeCount (fsInfoOf fatData before) = fat32Unknown ->
    freeCount (fsInfoOf fatData after) = freeClusters fatData after

def ReservationIsAtomic (fatData : FatData) (device : Device) (last : Nat) : Prop :=
  ∃ result device', addNewClusterToChain fatData last device = .ok (result, device') ∧
    Atomic fatData device.bytes last result device'.bytes

section Cost

variable {fatData : FatData} {bytes : Lib.Memory} {entries : Nat}

-- The first free cluster behind another one, among those that the search looks at.
def nextFree (fatData : FatData) (bytes : Lib.Memory) (cluster : Nat) : Option Nat :=
  firstFree fatData bytes (cluster + 1) (searchEnd fatData - (cluster + 1))

def recountCost (fatData : FatData) (bytes : Lib.Memory) : (fuel : Nat) -> Nat -> Nat
  | 0, _ => 0
  | fuel + 1, cluster =>
    match nextFree fatData bytes cluster with
    | none => 0
    | some next => searchCost fatData false (cluster + 1) (some next) + recountCost fatData bytes fuel next

def lastFree (fatData : FatData) (bytes : Lib.Memory) : (fuel : Nat) -> Nat -> Nat
  | 0, cluster => cluster
  | fuel + 1, cluster =>
    match nextFree fatData bytes cluster with
    | none => cluster
    | some next => lastFree fatData bytes fuel next

def emptyCost (fatData : FatData) (first : Nat) : Nat :=
  if first < searchEnd fatData then searchCost fatData false first none else 1

theorem emptySearch_priced (whole : fatData.bytesPerSector = 4 * entries) (room : 0 < entries) {first : Nat}
    (start : 2 ≤ first) (markReserved : Bool)
    (nothing : firstFree fatData bytes first (searchEnd fatData - first) = none) :
    Priced (firstFreeCluster fatData first markReserved) bytes (.ok 0) bytes (emptyCost fatData first) ∨
      Priced (firstFreeCluster fatData first markReserved) bytes (.error .unsuccessful) bytes
        (emptyCost fatData first) := by
  have limit := searchEnd_le whole
  by_cases beyond : entriesPerFat fatData ≤ first
  · left
    rw [emptyCost, if_neg (by omega)]
    exact firstFreeCluster_beyond markReserved beyond
  · by_cases inside : first < searchEnd fatData
    · left
      have search := @firstFreeCluster_priced fatData bytes entries whole room first markReserved start inside
      rw [nothing] at search
      rw [emptyCost, if_pos inside]
      exact search
    · right
      rw [emptyCost, if_neg inside]
      exact firstFreeCluster_unsearched whole room markReserved beyond inside

theorem foundSearch_priced (whole : fatData.bytesPerSector = 4 * entries) (room : 0 < entries) {first found : Nat}
    (start : 2 ≤ first) (markReserved : Bool)
    (some : firstFree fatData bytes first (searchEnd fatData - first) = some found) :
    Priced (firstFreeCluster fatData first markReserved) bytes (.ok found) (marked fatData bytes markReserved found)
      (searchCost fatData markReserved first (.some found)) := by
  obtain ⟨-, ⟨lower, upper⟩, -⟩ := firstFree_some.mp some
  have search := @firstFreeCluster_priced fatData bytes entries whole room first markReserved start (by omega)
  rw [some] at search
  exact search

end Cost

structure CountedUp (before after : Lib.Memory) (added : Nat) : Prop where
  count : freeCount after = freeCount before + added
  frame : forall place, ¬ (fsiFreeCount ≤ place ∧ place < fsiFreeCount + 4) -> after place = before place

theorem CountedUp.refl (fsInfo : Lib.Memory) : CountedUp fsInfo fsInfo 0 where
  count := rfl
  frame _ _ := rfl

theorem CountedUp.trans {first second third : Lib.Memory} {some more : Nat} (one : CountedUp first second some)
    (two : CountedUp second third more) : CountedUp first third (some + more) where
  count := by rw [two.count, one.count, Nat.add_assoc]
  frame place outside := (two.frame place outside).trans (one.frame place outside)

theorem freeCount_setFreeCount {fsInfo : Lib.Memory} {value : Nat} (bound : value < 2 ^ 32) :
    freeCount (setFreeCount fsInfo value) = value :=
  Lib.Memory.load_store bound

theorem countedUp_one {fsInfo : Lib.Memory} (bound : freeCount fsInfo + 1 < 2 ^ 32) :
    CountedUp fsInfo (setFreeCount fsInfo (dword (freeCount fsInfo + 1))) 1 where
  count := by rw [dword_of_lt bound, freeCount_setFreeCount bound]
  frame _ outside := Lib.Memory.store_elsewhere outside

section Recount

variable {fatData : FatData} {bytes : Lib.Memory} {entries cluster next : Nat}

def freeBehind (fatData : FatData) (bytes : Lib.Memory) (cluster : Nat) : Nat :=
  (List.range' (cluster + 1) (searchEnd fatData - (cluster + 1))).countP (isFree fatData bytes)

theorem countP_none {start count : Nat}
    (none : forall cluster, start ≤ cluster -> cluster < start + count -> isFree fatData bytes cluster = false) :
    (List.range' start count).countP (isFree fatData bytes) = 0 := by
  rw [List.countP_eq_zero]
  intro cluster member
  obtain ⟨lower, upper⟩ := List.mem_range'_1.mp member
  rw [none cluster lower upper]
  exact Bool.false_ne_true

theorem countP_split {start middle count : Nat} (inside : middle ≤ count) :
    (List.range' start count).countP (isFree fatData bytes) =
      (List.range' start middle).countP (isFree fatData bytes) +
        (List.range' (start + middle) (count - middle)).countP (isFree fatData bytes) := by
  rw [← List.countP_append, List.range'_append_1, Nat.add_sub_cancel' inside]

theorem countP_head {start count : Nat} (free : isFree fatData bytes start = true) :
    (List.range' start (count + 1)).countP (isFree fatData bytes) =
      1 + (List.range' (start + 1) count).countP (isFree fatData bytes) := by
  rw [List.range'_succ, List.countP_cons_of_pos free, Nat.add_comm]

theorem freeBehind_none (nothing : nextFree fatData bytes cluster = none) : freeBehind fatData bytes cluster = 0 :=
  countP_none (firstFree_none.mp nothing)

theorem freeBehind_some (found : nextFree fatData bytes cluster = some next) :
    freeBehind fatData bytes cluster = 1 + freeBehind fatData bytes next := by
  obtain ⟨free, ⟨lower, upper⟩, least⟩ := firstFree_some.mp found
  have middle : next - (cluster + 1) ≤ searchEnd fatData - (cluster + 1) := by omega
  have position : cluster + 1 + (next - (cluster + 1)) = next := Nat.add_sub_cancel' lower
  have rest : searchEnd fatData - (cluster + 1) - (next - (cluster + 1)) =
      searchEnd fatData - (next + 1) + 1 := by omega
  rw [freeBehind, countP_split middle, position, rest, countP_head free, countP_none, Nat.zero_add, freeBehind]
  intro other first before
  exact least other first (by omega)

theorem recount_counts (whole : fatData.bytesPerSector = 4 * entries) (room : 0 < entries) {fuel : Nat}
    (positive : 0 < fuel) (start : 1 ≤ cluster) (enough : searchEnd fatData ≤ cluster + fuel) {fsInfo : Lib.Memory}
    (bound : freeCount fsInfo + freeBehind fatData bytes cluster < 2 ^ 32) (countdown : Option Nat) :
    ∃ after added countdown',
      recount fatData fuel cluster fsInfo { bytes := bytes, countdown := countdown } =
        .ok (.ok after, { bytes := bytes, countdown := countdown' }) ∧
      CountedUp fsInfo after added ∧ added ≤ freeBehind fatData bytes cluster ∧
      (added = freeBehind fatData bytes cluster ↔ Enough countdown (recountCost fatData bytes fuel cluster)) ∧
      (Enough countdown (recountCost fatData bytes fuel cluster +
          emptyCost fatData (lastFree fatData bytes fuel cluster + 1)) ->
        countdown' = remaining countdown (recountCost fatData bytes fuel cluster +
          emptyCost fatData (lastFree fatData bytes fuel cluster + 1))) ∧
      (¬ Enough countdown (recountCost fatData bytes fuel cluster +
          emptyCost fatData (lastFree fatData bytes fuel cluster + 1)) -> countdown' = none) := by
  induction fuel generalizing cluster fsInfo countdown with
  | zero => omega
  | succ fuel ih =>
    unfold recount
    cases found : nextFree fatData bytes cluster with
    | none =>
      have cost : recountCost fatData bytes (fuel + 1) cluster = 0 := by rw [recountCost, found]
      have last : lastFree fatData bytes (fuel + 1) cluster = cluster := by rw [lastFree, found]
      have behind := freeBehind_none found
      have always : Enough countdown 0 := fun _ _ => Nat.zero_le _
      rw [cost, last, behind, Nat.zero_add]
      by_cases paid : Enough countdown (emptyCost fatData (cluster + 1))
      · refine ⟨fsInfo, 0, remaining countdown (emptyCost fatData (cluster + 1)), ?_, CountedUp.refl fsInfo,
          le_refl 0, by tauto, fun _ => rfl, fun few => absurd paid few⟩
        rcases emptySearch_priced whole room (by omega) false found with search | search
        · rw [Program.attempt_bind (search.run paid)]
          rfl
        · rw [Program.attempt_bind (search.run paid)]
          rfl
      · refine ⟨fsInfo, 0, none, ?_, CountedUp.refl fsInfo, le_refl 0, by tauto, fun enough => absurd enough paid,
          fun _ => rfl⟩
        rcases emptySearch_priced whole room (by omega) false found with search | search
        · obtain ⟨code, fails⟩ := search.cut paid
          rw [Program.attempt_bind fails]
          rfl
        · obtain ⟨code, fails⟩ := search.cut paid
          rw [Program.attempt_bind fails]
          rfl
    | some next =>
      obtain ⟨free, ⟨lower, upper⟩, least⟩ := firstFree_some.mp found
      have cost : recountCost fatData bytes (fuel + 1) cluster =
          searchCost fatData false (cluster + 1) (some next) + recountCost fatData bytes fuel next := by
        rw [recountCost, found]
      have last : lastFree fatData bytes (fuel + 1) cluster = lastFree fatData bytes fuel next := by
        rw [lastFree, found]
      have behind := freeBehind_some found
      have search := @foundSearch_priced fatData bytes entries whole room (cluster + 1) next (by omega) false found
      rw [cost, last, Nat.add_assoc, enough_add, enough_add, ← remaining_add]
      by_cases paid : Enough countdown (searchCost fatData false (cluster + 1) (some next))
      · have one := @countedUp_one fsInfo (by omega)
        have count := one.count
        obtain ⟨after, added, countdown', result, counted, most, exact, spent, cut⟩ :=
          @ih next (by omega) (by omega) (by omega)
            (setFreeCount fsInfo (dword (freeCount fsInfo + 1))) (by omega)
            (remaining countdown (searchCost fatData false (cluster + 1) (some next)))
        refine ⟨after, 1 + added, countdown', ?_, one.trans counted, by omega, ?_, ?_, ?_⟩
        · rw [Program.attempt_bind (search.run paid)]
          dsimp only
          rw [if_neg (by omega)]
          exact result
        · rw [behind, ← exact]
          constructor
          · intro same
            exact ⟨paid, by omega⟩
          · rintro ⟨-, same⟩
            omega
        · rintro ⟨-, rest⟩
          exact spent rest
        · intro few
          exact cut fun rest => few ⟨paid, rest⟩
      · refine ⟨fsInfo, 0, none, ?_, CountedUp.refl fsInfo, by omega, ?_, ?_, fun _ => rfl⟩
        · obtain ⟨code, fails⟩ := search.cut paid
          rw [Program.attempt_bind fails]
          rfl
        · constructor
          · intro same
            omega
          · rintro ⟨enough, -⟩
            exact absurd enough paid
        · rintro ⟨enough, -⟩
          exact absurd enough paid

end Recount

section Link

variable {fatData : FatData} {bytes : Lib.Memory} {last reserved : Nat} {countdown : Option Nat}

def linkedBytes (fatData : FatData) (bytes : Lib.Memory) (last reserved : Nat) : Lib.Memory :=
  setFatEntry fatData (setFatEntry fatData bytes reserved fat32EocMark) last (dword reserved)

def linkCost (fatData : FatData) (hint reserved : Nat) : Nat :=
  1 + (1 + (searchCost fatData true hint (some reserved) + (1 + (1 + 1))))

theorem reserveAndLink_linked (sector : fatData.bytesPerSector = 512)
    (hint : 2 ≤ nxtFree (fsInfoOf fatData bytes)) (given : freeCount (fsInfoOf fatData bytes) ≠ 0)
    (found : firstFree fatData bytes (nxtFree (fsInfoOf fatData bytes))
      (searchEnd fatData - nxtFree (fsInfoOf fatData bytes)) = some reserved)
    (enough : Enough countdown (linkCost fatData (nxtFree (fsInfoOf fatData bytes)) reserved)) :
    reserveAndLink fatData last { bytes := bytes, countdown := countdown } =
      (if fat32Unknown = freeCount (fsInfoOf fatData bytes) then do
        let counted <- recount fatData (entriesPerFat fatData + 1) reserved
          (setFreeCount (setNxtFree (fsInfoOf fatData bytes) (dword reserved)) 0)
        pure (some counted, reserved)
      else pure (some (setFreeCount (setNxtFree (fsInfoOf fatData bytes) (dword reserved))
        (freeCount (fsInfoOf fatData bytes) - 1)), reserved))
        { bytes := linkedBytes fatData bytes last reserved,
          countdown := remaining countdown (linkCost fatData (nxtFree (fsInfoOf fatData bytes)) reserved) } := by
  have whole : fatData.bytesPerSector = 4 * 128 := sector
  have room : entriesPerFatSector fatData ≠ 0 := by
    rw [entriesPerFatSector_eq whole]
    decide
  obtain ⟨free, ⟨lower, upper⟩, -⟩ := firstFree_some.mp found
  have search := @foundSearch_priced fatData bytes 128 whole (by decide) _ reserved hint true found
  obtain ⟨one, enough⟩ := enough_add.mp enough
  obtain ⟨two, enough⟩ := enough_add.mp enough
  obtain ⟨three, enough⟩ := enough_add.mp enough
  obtain ⟨four, enough⟩ := enough_add.mp enough
  obtain ⟨five, six⟩ := enough_add.mp enough
  have read : (sizeofFsInfo == fatData.bytesPerSector) = true := by
    rw [sector]
    decide
  rw [reserveAndLink, Program.attempt_bind (Priced.allocate.run one)]
  dsimp only
  rw [Program.attempt_bind (Priced.ioReadDevice.run two)]
  dsimp only
  rw [read, Program.require_true, Program.pure_bind, ← fsInfoOf, if_neg given,
    Program.attempt_bind (search.run three)]
  dsimp only
  rw [if_neg (by omega), Program.attempt_bind (Priced.allocate.run four)]
  dsimp only
  rw [Program.attempt_bind (Priced.readSector.run five)]
  dsimp only
  rw [Program.attempt_bind (Priced.writeSector.run six)]
  dsimp only
  rw [copy_sector room, remaining_add, remaining_add, remaining_add, remaining_add, remaining_add]
  rfl

def Unlinked (fatData : FatData) (device : Device) (last : Nat) : Prop :=
  (∃ reason, reserveAndLink fatData last device = .error reason) ∨
    ∃ fsInfo reserved device', reserveAndLink fatData last device = .ok (.ok (fsInfo, reserved), device') ∧
      link fatData device'.bytes last = link fatData device.bytes last

theorem reserveAndLink_unlinked (sector : fatData.bytesPerSector = 512)
    (hint : 2 ≤ nxtFree (fsInfoOf fatData bytes)) (ends : EndsChain fatData bytes last)
    (unlinkable : freeCount (fsInfoOf fatData bytes) = 0 ∨ forall reserved,
      firstFree fatData bytes (nxtFree (fsInfoOf fatData bytes))
        (searchEnd fatData - nxtFree (fsInfoOf fatData bytes)) = some reserved ->
      ¬ Enough countdown (linkCost fatData (nxtFree (fsInfoOf fatData bytes)) reserved)) :
    Unlinked fatData { bytes := bytes, countdown := countdown } last := by
  have whole : fatData.bytesPerSector = 4 * 128 := sector
  have read : (sizeofFsInfo == fatData.bytesPerSector) = true := by
    rw [sector]
    decide
  unfold Unlinked reserveAndLink
  by_cases one : Enough countdown 1
  case neg =>
    obtain ⟨code, fails⟩ := Priced.allocate.cut one
    exact .inr ⟨_, _, _, Program.attempt_bind fails, rfl⟩
  rw [Program.attempt_bind (Priced.allocate.run one)]
  dsimp only
  by_cases two : Enough (remaining countdown 1) 1
  case neg =>
    obtain ⟨code, fails⟩ := Priced.ioReadDevice.cut two
    exact .inr ⟨_, _, _, Program.attempt_bind fails, rfl⟩
  rw [Program.attempt_bind (Priced.ioReadDevice.run two)]
  dsimp only
  rw [read, Program.require_true, Program.pure_bind, ← fsInfoOf]
  by_cases zero : freeCount (fsInfoOf fatData bytes) = 0
  case pos =>
    rw [if_pos zero]
    exact .inr ⟨_, _, _, rfl, rfl⟩
  rw [if_neg zero]
  cases found : firstFree fatData bytes (nxtFree (fsInfoOf fatData bytes))
      (searchEnd fatData - nxtFree (fsInfoOf fatData bytes)) with
  | none =>
    by_cases three : Enough (remaining (remaining countdown 1) 1)
        (emptyCost fatData (nxtFree (fsInfoOf fatData bytes)))
    case pos =>
      rcases emptySearch_priced whole (by decide) hint true found with search | search
      · rw [Program.attempt_bind (search.run three)]
        dsimp only
        rw [if_pos rfl]
        cases known : fat32Unknown == freeCount (fsInfoOf fatData bytes) with
        | false => exact .inl ⟨_, rfl⟩
        | true => exact .inr ⟨_, _, _, rfl, rfl⟩
      · rw [Program.attempt_bind (search.run three)]
        exact .inr ⟨_, _, _, rfl, rfl⟩
    case neg =>
      rcases emptySearch_priced whole (by decide) hint true found with search | search
      · obtain ⟨code, fails⟩ := search.cut three
        exact .inr ⟨_, _, _, Program.attempt_bind fails, rfl⟩
      · obtain ⟨code, fails⟩ := search.cut three
        exact .inr ⟨_, _, _, Program.attempt_bind fails, rfl⟩
  | some reserved =>
    obtain ⟨free, ⟨lower, upper⟩, -⟩ := firstFree_some.mp found
    have search := @foundSearch_priced fatData bytes 128 whole (by decide) _ reserved hint true found
    have apart : reserved ≠ last := by
      rintro rfl
      have mark := ends.mark
      rw [isFree_iff.mp free] at mark
      exact absurd mark (by decide)
    have kept : link fatData (marked fatData bytes true reserved) last = link fatData bytes last :=
      link_setFatEntry_apart whole apart
    by_cases three : Enough (remaining (remaining countdown 1) 1)
        (searchCost fatData true (nxtFree (fsInfoOf fatData bytes)) (some reserved))
    case neg =>
      obtain ⟨code, fails⟩ := search.cut three
      exact .inr ⟨_, _, _, Program.attempt_bind fails, rfl⟩
    rw [Program.attempt_bind (search.run three)]
    dsimp only
    rw [if_neg (by omega)]
    by_cases four : Enough (remaining (remaining (remaining countdown 1) 1)
        (searchCost fatData true (nxtFree (fsInfoOf fatData bytes)) (some reserved))) 1
    case neg =>
      obtain ⟨code, fails⟩ := Priced.allocate.cut four
      exact .inr ⟨_, _, _, Program.attempt_bind fails, kept⟩
    rw [Program.attempt_bind (Priced.allocate.run four)]
    dsimp only
    by_cases five : Enough (remaining (remaining (remaining (remaining countdown 1) 1)
        (searchCost fatData true (nxtFree (fsInfoOf fatData bytes)) (some reserved))) 1) 1
    case neg =>
      obtain ⟨code, fails⟩ := Priced.readSector.cut five
      exact .inr ⟨_, _, _, Program.attempt_bind fails, kept⟩
    rw [Program.attempt_bind (Priced.readSector.run five)]
    dsimp only
    by_cases six : Enough (remaining (remaining (remaining (remaining (remaining countdown 1) 1)
        (searchCost fatData true (nxtFree (fsInfoOf fatData bytes)) (some reserved))) 1) 1) 1
    case neg =>
      obtain ⟨code, fails⟩ := Priced.writeSector.cut six
      exact .inr ⟨_, _, _, Program.attempt_bind fails, kept⟩
    rcases unlinkable with none | few
    · exact absurd none zero
    · refine absurd ?_ (few reserved found)
      exact enough_add.mpr ⟨one, enough_add.mpr ⟨two, enough_add.mpr ⟨three, enough_add.mpr ⟨four,
        enough_add.mpr ⟨five, six⟩⟩⟩⟩⟩

theorem fatEntry_copy (sector : fatData.bytesPerSector = 512) (reservedSectors : 2 ≤ fatData.reservedSectors)
    (fsInfo : Lib.Memory) (cluster : Nat) :
    fatEntry fatData (bytes.copy (1 * fatData.bytesPerSector) sizeofFsInfo fsInfo) cluster =
      fatEntry fatData bytes cluster := by
  have whole : fatData.bytesPerSector = 4 * 128 := sector
  apply Lib.Memory.load_congr
  apply Lib.Memory.copy_agrees
  right
  rw [entryAddress_eq whole, sector, sizeofFsInfo]
  omega

theorem link_copy (sector : fatData.bytesPerSector = 512) (reservedSectors : 2 ≤ fatData.reservedSectors)
    (fsInfo : Lib.Memory) (cluster : Nat) :
    link fatData (bytes.copy (1 * fatData.bytesPerSector) sizeofFsInfo fsInfo) cluster =
      link fatData bytes cluster := by
  rw [link, fatEntry_copy sector reservedSectors, link]

theorem freeCount_copy (fsInfo : Lib.Memory) :
    freeCount (fsInfoOf fatData (bytes.copy (1 * fatData.bytesPerSector) sizeofFsInfo fsInfo)) =
      freeCount fsInfo := by
  rw [freeCount, fsInfoOf, Lib.Memory.load_slice (by decide), Lib.Memory.load_copy (by decide), freeCount]

theorem addNewClusterToChain_run (sector : fatData.bytesPerSector = 512) (chained : fat32Eoc last = false)
    {device : Device} {fsInfo : Lib.Memory}
    (tried : reserveAndLink fatData last device =
      .ok (.ok (some fsInfo, reserved), { bytes := bytes, countdown := countdown }))
    (enough : Enough countdown 1) :
    addNewClusterToChain fatData last device =
      .ok (.ok reserved, { bytes := bytes.copy (1 * fatData.bytesPerSector) sizeofFsInfo fsInfo,
                           countdown := remaining countdown 1 }) := by
  have written : (sizeofFsInfo == fatData.bytesPerSector) = true := by
    rw [sector]
    decide
  rw [addNewClusterToChain, chained, Bool.not_false, Program.require_true, Program.pure_bind, Returns.bind tried]
  dsimp only
  rw [Program.attempt_bind (Priced.ioWriteDevice.run enough)]
  dsimp only
  rw [written]
  rfl

theorem addNewClusterToChain_cut (sector : fatData.bytesPerSector ≠ 0) {device : Device} {fsInfo : Lib.Memory}
    (tried : reserveAndLink fatData last device =
      .ok (.ok (some fsInfo, reserved), { bytes := bytes, countdown := countdown }))
    (few : ¬ Enough countdown 1) : ∃ reason, addNewClusterToChain fatData last device = .error reason := by
  have written : (0 == fatData.bytesPerSector) = false := beq_eq_false_iff_ne.mpr (Ne.symm sector)
  cases chained : fat32Eoc last with
  | true =>
    refine ⟨.assertion "!FAT32_EOC(LastClusterFromChain)", ?_⟩
    rw [addNewClusterToChain, chained]
    rfl
  | false =>
    obtain ⟨code, fails⟩ := Priced.ioWriteDevice.cut few
    refine ⟨.assertion "bytesToReadWrite == FatData->BytesPerSector", ?_⟩
    rw [addNewClusterToChain, chained, Bool.not_false, Program.require_true, Program.pure_bind,
      Returns.bind tried]
    dsimp only
    rw [Program.attempt_bind fails]
    dsimp only
    rw [written]
    rfl

end Link

end Hal9000.Fat32
