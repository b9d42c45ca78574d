import TopicTree.Channel.Basic
import TopicTree.Network.Cabling
import TopicTree.Proofs.Wire.Stream

/-!
# Frames at sockets

What a channel does at a socket of a cabling: a frame written at one end of a cable is received at
the other one by one poll, a socket without bytes is polled without consequence, and no socket is
touched but the two.
-/

namespace TopicTree

/-! ## Sockets -/

namespace Cabling

/-- The first byte that waits is received. -/
theorem receive_byte {cabling : Cabling} {label : String} {byte : UInt8} {inbox : Bytes}
    {socket : Socket} (waits : cabling.socket label = { socket with inbox := byte :: inbox })
    (works : socket.readFault = none) :
    receive label cabling
      = (.ok (some byte), cabling.set label { socket with inbox }) := by
  simp only [receive, waits, works]

/-- A socket without bytes has nothing to receive. -/
theorem receive_quiet {cabling : Cabling} {label : String}
    (empty : (cabling.socket label).inbox = []) :
    (∃ fault, receive label cabling = (.error fault, cabling)) ∨
      receive label cabling = (.ok none, cabling) := by
  cases hfault : (cabling.socket label).readFault with
  | some fault => exact .inl ⟨fault, by simp only [receive, hfault]⟩
  | none => exact .inr (by simp only [receive, hfault, empty])

/-- Bytes fed to a socket wait there last, and no other socket has them. -/
theorem socket_feed (cabling : Cabling) (label : String) (bytes : Bytes) (other : String) :
    (cabling.feed label bytes).socket other
      = if other = label then
          { cabling.socket label with inbox := (cabling.socket label).inbox ++ bytes }
        else cabling.socket other := by
  rw [feed, socket_set]

/-- Bytes written at a socket that works are fed to its peer. -/
theorem transmit_eq_ok {cabling : Cabling} {label peer : String} {inbox : Bytes}
    {fault : Option TransportError}
    (cable : cabling.socket label = ⟨inbox, some peer, fault, none⟩) (bytes : Bytes) :
    transmit label bytes cabling = (.ok (), cabling.feed peer bytes) := by
  simp only [transmit, cable]

/-- Writing at a socket is seen at its peer at most. -/
theorem socket_transmit {cabling : Cabling} {label other : String} (bytes : Bytes)
    (apart : (cabling.socket label).peer ≠ some other) :
    (transmit label bytes cabling).2.socket other = cabling.socket other := by
  unfold transmit
  simp only []
  split
  · rfl
  · rfl
  · next peer _ hpeer =>
    have hne : other ≠ peer := fun heq => apart (heq ▸ hpeer)
    rw [socket_feed, if_neg hne]

end Cabling

/-! ## Channels -/

namespace Channel

/-- A poll takes the next byte and goes on as it tells. -/
theorem poll_eq {M : Type} [Medium M] (channel : Channel) (medium : M) :
    channel.poll medium =
      match Medium.receive channel.socket medium with
      | (.error _, after) => (none, channel.countTransportError, after)
      | (.ok none, after) => (none, channel, after)
      | (.ok (some byte), after) =>
        match channel.decoder.push byte with
        | (.ok (some frame), decoder) => (some frame, channel.countReceived decoder, after)
        | (.ok none, decoder) => { channel with decoder }.poll after
        | (.error _, decoder) => (channel.countParseError decoder).poll after := by
  rw [poll]
  split
  · next taken => exact taken ▸ rfl
  · next taken => exact taken ▸ rfl
  · next taken => exact taken ▸ rfl

/-- What reads at its socket keep of a medium, a poll of a channel keeps. -/
theorem poll_keeps {M : Type} [Medium M] {P : M → Prop} {channel : Channel} {medium : M}
    (reads : ∀ {before outcome after}, P before →
      Medium.receive channel.socket before = (outcome, after) → P after)
    (start : P medium) : P (channel.poll medium).2.2 := by
  fun_induction poll channel medium with
  | case1 _ _ _ _ receives => exact reads start receives
  | case2 _ _ _ receives => exact reads start receives
  | case3 _ _ _ _ receives => exact reads start receives
  | case4 _ _ _ _ receives _ _ ih => exact ih reads (reads start receives)
  | case5 _ _ _ _ receives _ _ _ ih => exact ih reads (reads start receives)

/-- Bytes that complete a frame are received by one poll, and what waits behind them stays. -/
theorem poll_frame {bytes : Bytes} {frame : Frame} {channel : Channel} {cabling : Cabling}
    {socket : Socket} {rest : Bytes} (yields : channel.decoder.Yields bytes frame)
    (works : socket.readFault = none)
    (waits : cabling.socket channel.socket = { socket with inbox := bytes ++ rest }) :
    ∃ after : Cabling, channel.poll cabling
        = (some frame, channel.countReceived Decoder.start, after) ∧
      ∀ label, after.socket label
        = if label = channel.socket then { socket with inbox := rest }
          else cabling.socket label := by
  obtain ⟨decoder, hdecoder⟩ : ∃ decoder, channel.decoder = decoder := ⟨_, rfl⟩
  rw [hdecoder] at yields
  induction yields generalizing channel cabling with
  | @last decoder byte frame done =>
    have hreceive : Medium.receive channel.socket cabling
        = (.ok (some byte), cabling.set channel.socket { socket with inbox := rest }) :=
      Cabling.receive_byte waits works
    refine ⟨_, ?_, Cabling.socket_set cabling channel.socket _⟩
    rw [poll_eq, hreceive]
    simp only [hdecoder, done]
  | @more decoder next byte rest' frame goes ends ih =>
    have hreceive : Medium.receive channel.socket cabling
        = (.ok (some byte), cabling.set channel.socket { socket with inbox := rest' ++ rest }) :=
      Cabling.receive_byte waits works
    have hwaits : (cabling.set channel.socket { socket with inbox := rest' ++ rest }).socket
        channel.socket = { socket with inbox := rest' ++ rest } := by
      rw [Cabling.socket_set, if_pos rfl]
    obtain ⟨after, hpoll, hsockets⟩ := @ih { channel with decoder := next } _ hwaits rfl
    refine ⟨after, ?_, ?_⟩
    · rw [poll_eq, hreceive]
      simp only [hdecoder, goes]
      exact hpoll
    · intro label
      rw [hsockets, Cabling.socket_set]
      split <;> rfl

/-- A poll of a socket without bytes changes nothing but the counters of the channel. -/
theorem poll_quiet {channel : Channel} {cabling : Cabling}
    (empty : (cabling.socket channel.socket).inbox = []) :
    ∃ counters, channel.poll cabling = (none, { channel with counters }, cabling) := by
  rcases Cabling.receive_quiet empty with ⟨fault, hreceive⟩ | hreceive
  · replace hreceive : Medium.receive channel.socket cabling = (.error fault, cabling) := hreceive
    refine ⟨channel.countTransportError.counters, ?_⟩
    rw [poll_eq, hreceive]
    rfl
  · replace hreceive : Medium.receive channel.socket cabling = (.ok none, cabling) := hreceive
    exact ⟨channel.counters, by rw [poll_eq, hreceive]⟩

end Channel
end TopicTree
