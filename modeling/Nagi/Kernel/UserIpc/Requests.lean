import Nagi.Kernel.UserIpc.State

/-! What a send request asks for, and what a receive result reports. -/

namespace Nagi.Kernel

open Lib List

def ChannelSendRequest.bytes (request : ChannelSendRequest) : List UInt8 :=
  request.payload.slice request.payloadLen

def ChannelSendRequest.header (request : ChannelSendRequest) : MessageHeader :=
  ⟨request.protocolId, request.version, request.requestId, request.opcode, request.flags⟩

def ChannelSendRequest.moved (request : ChannelSendRequest) : List ChannelHandleTransfer :=
  (ofFn request.transfers).take request.transferCount

def ChannelSendRequest.ofTransfers (transfers : List ChannelHandleTransfer) : ChannelSendRequest where
  protocolId := 0
  version := 0
  opcode := 0
  flags := 0
  requestId := 0
  payloadLen := 0
  transferCount := transfers.length
  payload := fun _ => 0
  transfers := fun i => transfers[i.val]?.getD ⟨0, 0, 0⟩

def ChannelReceiveResult.bytes (result : ChannelReceiveResult) : List UInt8 :=
  result.payload.slice result.payloadLen

def ChannelReceiveResult.header (result : ChannelReceiveResult) : MessageHeader :=
  ⟨result.protocolId, result.version, result.requestId, result.opcode, result.flags⟩

def ChannelReceiveResult.received (result : ChannelReceiveResult) : List Handle :=
  ((ofFn result.handles).take result.transferCount).map Handle.mk

def ChannelHandleTransfer.disposition (transfer : ChannelHandleTransfer) : HandleDisposition :=
  ⟨⟨transfer.handle⟩, ⟨transfer.rights⟩⟩

theorem Rights.fromBits_eq_some {bits : BitVec 32} {rights : Rights} (known : Rights.fromBits bits = some rights) :
    rights = ⟨bits⟩ := by
  unfold Rights.fromBits at known
  split at known <;> cases known
  rfl

theorem OutgoingMessage.slice_setPayload {message next : OutgoingMessage} {bytes : List UInt8}
    (written : message.setPayload bytes = .ok next) :
    next.header = message.header ∧ next.transfers = message.transfers ∧
      next.payload.slice next.payloadLen = bytes := by
  unfold setPayload at written
  split at written
  · cases written
  next fits =>
  cases written
  refine ⟨rfl, rfl, ?_⟩
  apply List.ext_getElem
  · simp only [Payload.slice, List.length_take, List.length_ofFn]
    omega
  · intro place _ inside
    simp only [Payload.slice, List.getElem_take, List.getElem_ofFn, dif_pos inside]

namespace UserIpcState

theorem addTransfers_spec {message next : OutgoingMessage} {transfers : List ChannelHandleTransfer}
    (added : addTransfers message transfers = .ok next) :
    next.header = message.header ∧ next.payload = message.payload ∧ next.payloadLen = message.payloadLen ∧
      next.transfers = message.transfers ++ transfers.map (·.disposition) := by
  induction transfers generalizing message with
  | nil => cases added; simp
  | cons first rest ih =>
    unfold addTransfers at added
    split at added
    · cases added
    split at added
    · cases added
    next rights known =>
    split at added
    · cases added
    next longer appended =>
    unfold OutgoingMessage.addTransfer at appended
    split at appended <;> cases appended
    obtain ⟨header, payload, length, moved⟩ := ih added
    refine ⟨header, payload, length, ?_⟩
    rw [moved, Rights.fromBits_eq_some known, append_assoc]
    rfl

theorem outgoingMessage_spec {request : ChannelSendRequest} {message : OutgoingMessage}
    (checked : outgoingMessage request = .ok message) :
    message.header = request.header ∧ message.payload.slice message.payloadLen = request.bytes ∧
      message.transfers = request.moved.map (·.disposition) := by
  unfold outgoingMessage at checked
  split at checked
  · cases checked
  dsimp only at checked
  split at checked
  · cases checked
  · next written =>
    obtain ⟨header, transfers, bytes⟩ := OutgoingMessage.slice_setPayload written
    obtain ⟨header', payload, length, moved⟩ := addTransfers_spec checked
    exact ⟨header'.trans header, by rw [payload, length]; exact bytes, by rw [moved, transfers]; rfl⟩

theorem receiveResult_bytes (message : ReceivedMessage) :
    (receiveResult message).bytes = message.payload.slice message.payloadLen := by
  have fits : (message.payload.slice message.payloadLen).length ≤ maxInlinePayload := by
    simp only [Payload.slice, length_take, length_ofFn]
    omega
  apply ext_getElem
  · simp only [ChannelReceiveResult.bytes, receiveResult, Payload.slice, length_take, length_ofFn] at fits ⊢
    omega
  · intro place _ inside
    simp only [ChannelReceiveResult.bytes, receiveResult]
    rw [List.getElem_of_eq (show Payload.slice _ _ = (List.ofFn _).take _ from rfl), List.getElem_take,
      List.getElem_ofFn]
    simp [inside]

theorem receiveResult_received {message : ReceivedMessage} (few : message.handles.length ≤ maxTransferHandles) :
    (receiveResult message).received = message.handles := by
  apply List.ext_getElem
  · simp only [ChannelReceiveResult.received, receiveResult, List.length_map, List.length_take, List.length_ofFn]
    omega
  · intro place _ inside
    simp only [ChannelReceiveResult.received, receiveResult, List.getElem_map, List.getElem_take, List.getElem_ofFn]
    simp [inside]

end UserIpcState
end Nagi.Kernel
