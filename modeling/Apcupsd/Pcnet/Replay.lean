import Apcupsd.Pcnet.Packet

/-!
# Packets are not replayed

The packets that reach the driver, over any number of calls of {lit}`wait_for_data`, with
any arrivals in between.

Main results:

- Theorem {lit}`waitForData_eq`: a call handles the packets that it takes one after the
  other.
- Theorem {lit}`receivePacket_cases`: a packet is rejected and changes nothing, or it
  advances the remembered counters to its own.
- Theorem {lit}`accepted_increasing`: the counters of the accepted packets increase.
-/

namespace Apcupsd

open CStrings

/-! ## Sequences of packets -/

/-- The counters that the driver remembers. -/
def PcnetDriver.counters (drv : PcnetDriver) : ℕ × ℕ :=
  (drv.reboots, drv.uptime)

/-- The counters that a packet carries. -/
def packetCounters (packet : List Char) : Option (ℕ × ℕ) :=
  countersOf (pairs (receivedText packet))

/-- Whether the driver takes a packet. -/
def accepts (md5 : List Char → List Char) (pcnet : PcnetState) (packet : List Char) : Bool :=
  (authAndMapPacket md5 pcnet.driver (receivedText packet)).1.isSome

/-- The state after some packets. -/
def afterPackets (md5 : List Char → List Char) (pcnet : PcnetState)
    (packets : List (List Char)) : PcnetState :=
  packets.foldl (fun pcnet packet => (receivePacket md5 packet pcnet).2) pcnet

/-- The packets that the driver takes, in their order. -/
def accepted (md5 : List Char → List Char) : PcnetState → List (List Char) → List (List Char)
  | _, [] => []
  | pcnet, packet :: packets =>
      let later := accepted md5 (receivePacket md5 packet pcnet).2 packets
      if accepts md5 pcnet packet then packet :: later else later

/-- The packets among some arrivals. -/
def packetsOf (arrivals : List Arrival) : List (List Char) :=
  arrivals.filterMap fun
    | .packet bytes => some bytes
    | _ => none

section Runs

variable {md5 : List Char → List Char}

/-- A call handles the packets that it takes one after the other. -/
theorem waitForData_eq (arrivals : List Arrival) (pcnet : PcnetState) :
    ∃ taken, arrivals = taken ++ (waitForData md5 arrivals pcnet).2.2 ∧
      (waitForData md5 arrivals pcnet).2.1 = afterPackets md5 pcnet (packetsOf taken) := by
  induction arrivals generalizing pcnet with
  | nil => exact ⟨[], rfl, rfl⟩
  | cons arrival arrivals ih =>
      cases arrival with
      | packet bytes =>
          rw [waitForData]
          dsimp only
          split_ifs with hdone
          · exact ⟨[.packet bytes], rfl, rfl⟩
          · rcases ih (receivePacket md5 bytes pcnet).2 with ⟨taken, htaken, hstate⟩
            exact ⟨.packet bytes :: taken, congrArg (List.cons _) htaken, hstate⟩
      | interrupted =>
          rcases ih pcnet with ⟨taken, htaken, hstate⟩
          exact ⟨.interrupted :: taken, congrArg (List.cons _) htaken, hstate⟩
      | failed => exact ⟨[.failed], rfl, rfl⟩
      | timeout => exact ⟨[.timeout], rfl, rfl⟩

/-- A packet is rejected and changes nothing, or it advances the remembered counters to its
own. -/
theorem receivePacket_cases (packet : List Char) (pcnet : PcnetState) :
    (accepts md5 pcnet packet = false ∧ receivePacket md5 packet pcnet = (false, pcnet)) ∨
    (accepts md5 pcnet packet = true ∧
      ∃ counters, packetCounters packet = some counters ∧
        toLex pcnet.driver.counters < toLex counters ∧
        (receivePacket md5 packet pcnet).2.driver.counters = counters) := by
  unfold accepts receivePacket
  rcases authAndMapPacket_cases md5 pcnet.driver (receivedText packet) with
    ⟨counters, hadmits, heq⟩ | ⟨-, heq⟩
  · rw [heq]
    exact Or.inr ⟨rfl, counters, hadmits.read, hadmits.advances, rfl⟩
  · rw [heq]
    exact Or.inl ⟨rfl, rfl⟩

/-- Every packet that is taken carries counters beyond the remembered ones. -/
theorem advances_of_mem_accepted {packets : List (List Char)} {pcnet : PcnetState}
    {packet : List Char} (hpacket : packet ∈ accepted md5 pcnet packets) :
    ∃ counters, packetCounters packet = some counters ∧
      toLex pcnet.driver.counters < toLex counters := by
  induction packets generalizing pcnet with
  | nil => cases hpacket
  | cons head packets ih =>
      rcases @receivePacket_cases md5 head pcnet with
        ⟨hrejected, hstate⟩ | ⟨haccepted, counters, hcounters, hadvance, hafter⟩
      · rw [accepted, hrejected, hstate] at hpacket
        exact ih hpacket
      · rw [accepted, haccepted] at hpacket
        rcases List.mem_cons.mp hpacket with rfl | hlater
        · exact ⟨counters, hcounters, hadvance⟩
        · rcases ih hlater with ⟨other, hother, hbeyond⟩
          rw [hafter] at hbeyond
          exact ⟨other, hother, hadvance.trans hbeyond⟩

/-- The counters of the accepted packets increase. -/
theorem accepted_increasing (packets : List (List Char)) (pcnet : PcnetState) :
    ∃ counters : List (ℕ × ℕ),
      (accepted md5 pcnet packets).map packetCounters = counters.map some ∧
        (counters.map toLex).Pairwise (· < ·) := by
  induction packets generalizing pcnet with
  | nil => exact ⟨[], rfl, List.Pairwise.nil⟩
  | cons packet packets ih =>
      rcases @receivePacket_cases md5 packet pcnet with
        ⟨hrejected, hstate⟩ | ⟨haccepted, own, hown, -, hafter⟩
      · rw [accepted, hrejected, hstate]
        exact ih pcnet
      · rw [accepted, haccepted]
        rcases ih (receivePacket md5 packet pcnet).2 with ⟨counters, hcounters, hpairwise⟩
        refine ⟨own :: counters, ?_, ?_⟩
        · simp only [if_true, List.map_cons, hown, hcounters]
        · refine List.Pairwise.cons (fun later hlater => ?_) hpairwise
          rcases List.mem_map.mp hlater with ⟨other, hother, rfl⟩
          have hread : some other ∈ (accepted md5 _ packets).map packetCounters :=
            hcounters ▸ List.mem_map_of_mem hother
          rcases List.mem_map.mp hread with ⟨source, hsource, hsame⟩
          rcases advances_of_mem_accepted hsource with ⟨found, hfound, hbeyond⟩
          rw [hsame] at hfound
          obtain rfl := Option.some.inj hfound
          rw [hafter] at hbeyond
          exact hbeyond

/-- No packet is taken twice. -/
theorem accepted_nodup (packets : List (List Char)) (pcnet : PcnetState) :
    (accepted md5 pcnet packets).Nodup := by
  rcases @accepted_increasing md5 packets pcnet with ⟨counters, hcounters, hpairwise⟩
  have hnodup : counters.Nodup :=
    List.Nodup.of_map toLex (hpairwise.imp fun hlt => ne_of_lt hlt)
  have hread : ((accepted md5 pcnet packets).map packetCounters).Nodup := by
    rw [hcounters]
    exact hnodup.map (Option.some_injective _)
  exact List.Nodup.of_map _ hread

end Runs

/-! ## No replay -/

/-- Over any sequence of packets the counters of those that are accepted increase strictly,
no packet is accepted twice, and one that is rejected leaves the whole state as it was. -/
theorem pcnet_no_replay (md5 : List Char → List Char) (pcnet : PcnetState)
    (packets : List (List Char)) :
    (∃ counters : List (ℕ × ℕ),
      (accepted md5 pcnet packets).map packetCounters = counters.map some ∧
        (counters.map toLex).Pairwise (· < ·)) ∧
    (accepted md5 pcnet packets).Nodup ∧
    ∀ (packet : List Char) (before : List (List Char)), before ++ [packet] <+: packets →
      accepts md5 (afterPackets md5 pcnet before) packet = false →
        receivePacket md5 packet (afterPackets md5 pcnet before) =
          (false, afterPackets md5 pcnet before) := by
  refine ⟨accepted_increasing packets pcnet, accepted_nodup packets pcnet, ?_⟩
  intro packet before _ hrejected
  rcases @receivePacket_cases md5 packet (afterPackets md5 pcnet before) with
    ⟨-, hstate⟩ | ⟨haccepted, -⟩
  · exact hstate
  · rw [haccepted] at hrejected
    cases hrejected

end Apcupsd
