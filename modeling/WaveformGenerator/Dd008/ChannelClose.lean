import WaveformGenerator.Dd008.SessionDelivery

/-!
# Closing a channel

A host that closes a channel refuses data for it that is still in flight, and its decoder returns at
the refused packet: what lies behind it in the same chunk is dropped. A session goes on where nothing
does.
-/

namespace WaveformGenerator.Dd008

open Guarded

variable {config : CdcMuxConfig} {p : SessionPair}

/-- Two sessions in step stay in a session, and deliver all data on the channels that the host keeps
open, where every chunk that brings data for a channel that the host has closed ends with it. -/
theorem close_keeps_session (hreachable : Reachable config p) (hagreed : p.Agreed)
    (closes : CdcMuxChannel → Prop) (operations : List Operation)
    (hcontinues : ∀ operation ∈ operations, operation.Continues closes True)
    (hends : Runs (SessionPair.EndsAtRefusal config)
      (fun p operation => (SessionPair.perform config p operation).2) p operations) :
    let p' := p.after config operations
    let events := p.events config operations
    p'.host.established ∧ p'.device.established ∧
    (∀ e ∈ events, e.status ≠ CdcMuxHostSession.sequenceMismatch) ∧
    (∀ channel, DeliveredInOrder channel (events.flatMap Event.hostSent)
      (events.flatMap Event.deviceReceived) p'.toDevice) ∧
    ∀ channel, ¬closes channel → DeliveredInOrder channel (events.flatMap Event.deviceSent)
      (events.flatMap Event.hostReceived) p'.toHost := by
  intro p' events
  obtain ⟨items', devicePacket, hostPacket, inFlight, hjoint, haccounts⟩ :=
    (hagreed.joint hreachable closes True).after hcontinues fun _ => hends
  have hhost : p'.host.established := haccounts.established hagreed.host
  exact ⟨hhost, (hjoint.inSession hhost).device,
    fun e he => (haccounts.faultless e he).ne_sequenceMismatch,
    haccounts.toDeviceInOrder rfl hjoint.linked,
    fun channel hkept => haccounts.toHostInOrder hjoint.phase hkept⟩

/-- A chunk that closes one packet, at its end, is not cut short. -/
theorem refusesLast_of_not_mem_dropLast {chunk : List UInt8} (h : (0 : UInt8) ∉ chunk.dropLast)
    (host : CdcMuxHostSession) (packet : List UInt8) : RefusesLast config host packet chunk := by
  rintro a b rfl -
  by_contra hne
  rw [List.dropLast_append_of_ne_nil (by simp), List.dropLast_cons_of_ne_nil hne] at h
  exact h (List.mem_append_right _ List.mem_cons_self)

/-- A byte sent on each channel, the host closes one, and each byte arrives by itself. -/
def closedBetween : List Operation :=
  [.deviceSend .controlStatus [1], .deviceSend .binaryData [2], .closeChannel .controlStatus,
    .deliverToHost 19, .deliverToHost 19]

theorem close_keeps_session_closedBetween :
    (bothOpened.after {} closedBetween).host.established ∧
    DeliveredInOrder .binaryData ((bothOpened.events {} closedBetween).flatMap Event.deviceSent)
      ((bothOpened.events {} closedBetween).flatMap Event.hostReceived)
      (bothOpened.after {} closedBetween).toHost := by
  have hcontinues : ∀ operation ∈ closedBetween,
      operation.Continues (· = .controlStatus) True := by
    simp [closedBetween, Operation.Continues]
  have hends : Runs (SessionPair.EndsAtRefusal {})
      (fun p operation => (SessionPair.perform {} p operation).2) bothOpened closedBetween :=
    ⟨trivial, trivial, trivial, refusesLast_of_not_mem_dropLast (by decide +kernel) _ _,
      refusesLast_of_not_mem_dropLast (by decide +kernel) _ _, trivial⟩
  have hkept : ¬CdcMuxChannel.binaryData = .controlStatus := by decide
  obtain ⟨hhost, -, -, -, hdelivered⟩ :=
    close_keeps_session reachable_bothOpened agreed_bothOpened (· = .controlStatus) closedBetween hcontinues hends
  exact ⟨hhost, hdelivered .binaryData hkept⟩

/-- Both bytes arrive in one chunk: the refused one takes the other with it, and the host gives the
session up at the next frame. -/
theorem close_loses_session :
    let operations : List Operation := [.deviceSend .controlStatus [1], .deviceSend .binaryData [2],
      .closeChannel .controlStatus, .deliverToHost 100, .deviceSend .binaryData [3],
      .deliverToHost 100]
    bothOpened.host.established ∧ bothOpened.device.established ∧
    (bothOpened.after {} operations).toHost = [] ∧
    (bothOpened.events {} operations).flatMap Event.hostReceived = [] ∧
    (∃ e ∈ bothOpened.events {} operations, e.status = CdcMuxHostSession.sequenceMismatch) ∧
    (bothOpened.after {} operations).host.established = false := by
  decide +kernel

/-- The host knows of the close at once, the device when its frame arrives. -/
example :
    let p := bothOpened.after {} [.closeChannel .controlStatus]
    p.host.channelOpen .controlStatus = false ∧ p.device.channelOpen .controlStatus = true := by
  decide +kernel

end WaveformGenerator.Dd008
