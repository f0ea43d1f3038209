import KnxRs.TunnelRoster

set_option autoImplicit false

/-!
# Connect requests

Which requests open a tunnel, and what the others are answered.
-/
namespace KnxRs.TunnelServer
open CoreTypes KnxIpCodec KnxIpNetwork ServerEvents

def criOffset : Nat := Hpai.len + Hpai.len

def connectionType (body : List UInt8) : UInt8 := body.getD (criOffset + 1) 0

/-- What `handle_connect` reads: two endpoints, and four octets after them. -/
structure ReadsConnect (body : List UInt8) : Prop where
  length : 20 ≤ body.length
  control : (Hpai.parse body).isSome
  data : (Hpai.parse (body.drop Hpai.len)).isSome

/-- Two endpoints, and a connection request information that is the rest of the body. -/
structure WellFormedConnect (body : List UInt8) : Prop extends ReadsConnect body where
  cri : (body.getD criOffset 0).toNat = body.length - criOffset

def Refuses (d : Datagram) : Prop :=
  ∃ answer, KnxIpFrame.parse d.octets = .ok answer ∧ answer.serviceType = .connectResponse ∧
    answer.body.getD 1 0 ≠ eNoError

structure Accepts (body : List UInt8) (tunnels : List TunnelClient) : Prop where
  reads : ReadsConnect body
  type : connectionType body ≠ deviceMgmtConnection
  slot : tunnels.length < maxTunnels

section
variable (env : Env) (src : SocketAddr) (next : UInt8) {frame : KnxIpFrame}
  {tunnels : List TunnelClient}

theorem mem_refusal {env : Env} {status : UInt8} {dst : SocketAddr} {d : Datagram}
    (hstatus : status ≠ eNoError)
    (h : d ∈ env.send (buildConnectResponse 0 status 0 env.port) dst) : Refuses d :=
  ⟨_, (Env.mem_send h).2, rfl, hstatus⟩

theorem handleConnect_opens (h : Accepts frame.body tunnels) :
    ∃ t, (handleConnect env src frame tunnels next).1 = tunnels ++ [t] := by
  obtain ⟨control, hcontrol⟩ := Option.isSome_iff_exists.mp h.reads.control
  obtain ⟨data, hdata⟩ := Option.isSome_iff_exists.mp h.reads.data
  have hfound : ∃ channelId, freeChannel tunnels 256 next = some channelId :=
    TunnelRoster.freeChannel_found next h.slot
  obtain ⟨channelId, hfree⟩ := hfound
  unfold handleConnect
  rw [if_neg (Nat.not_lt.mpr h.reads.length), hcontrol, hdata]
  dsimp only
  have htype : ¬ frame.body.getD (Hpai.len + Hpai.len + 1) 0 = deviceMgmtConnection := h.type
  rw [if_neg htype, if_neg (Nat.not_le.mpr h.slot), hfree]
  exact ⟨_, rfl⟩

theorem handleConnect_refuses (h : ¬ Accepts frame.body tunnels) :
    (handleConnect env src frame tunnels next).1 = tunnels ∧
      ∀ d ∈ (handleConnect env src frame tunnels next).2.2, Refuses d := by
  have hsilent : ∀ d ∈ ([] : List Datagram), Refuses d := fun d hd => absurd hd List.not_mem_nil
  unfold handleConnect
  by_cases hshort : frame.body.length < 20
  · rw [if_pos hshort]
    exact ⟨rfl, hsilent⟩
  rw [if_neg hshort]
  split
  · next control data hcontrol hdata =>
    dsimp only
    split_ifs with htype hfull
    · exact ⟨rfl, fun d hd => mem_refusal (by decide) hd⟩
    · exact ⟨rfl, fun d hd => mem_refusal (by decide) hd⟩
    · have hreads : ReadsConnect frame.body :=
        ⟨Nat.le_of_not_lt hshort, Option.isSome_iff_exists.mpr ⟨control, hcontrol⟩,
          Option.isSome_iff_exists.mpr ⟨data, hdata⟩⟩
      exact absurd ⟨hreads, htype, Nat.lt_of_not_le hfull⟩ h
  · exact ⟨rfl, hsilent⟩

end

/-- A tunnel is opened exactly for a well-formed request of a tunnel connection with a slot
    free; any other leaves the tunnels as they are, and is refused where it is answered. -/
structure ServesConnect (body : List UInt8) (before after : List TunnelClient)
    (sends : List Datagram) : Prop where
  opened : (∃ t, after = before ++ [t]) ↔
    WellFormedConnect body ∧ connectionType body = tunnelConnection ∧ before.length < maxTunnels
  refused : ¬(WellFormedConnect body ∧ connectionType body = tunnelConnection ∧
    before.length < maxTunnels) → after = before ∧ ∀ d ∈ sends, Refuses d

/-- A request is served so exactly where a request that opens a tunnel is one for a tunnel
    connection, with nothing after its connection request information. -/
theorem connect_served_iff {env : Env} {state : ServerState} {src : SocketAddr}
    {data : List UInt8} {frame : KnxIpFrame} (hparse : KnxIpFrame.parse data = .ok frame)
    (hservice : frame.serviceType = .connectRequest) :
    ServesConnect frame.body state.tunnels (state.handlePacket env src data).1.tunnels
        (state.handlePacket env src data).2.sends ↔
      (Accepts frame.body state.tunnels → connectionType frame.body = tunnelConnection ∧
        (frame.body.getD criOffset 0).toNat = frame.body.length - criOffset) := by
  have hpacket : (state.handlePacket env src data).1.tunnels =
        (handleConnect env src frame state.tunnels state.nextChannelId).1 ∧
      (state.handlePacket env src data).2.sends =
        (handleConnect env src frame state.tunnels state.nextChannelId).2.2 := by
    unfold ServerState.handlePacket
    rw [hparse]
    dsimp only
    rw [hservice]
    exact ⟨rfl, rfl⟩
  rw [hpacket.1, hpacket.2]
  by_cases haccepts : Accepts frame.body state.tunnels
  · have hopens := handleConnect_opens env src state.nextChannelId haccepts
    constructor
    · rintro ⟨hopened, _⟩ _
      obtain ⟨hwell, htype, _⟩ := hopened.mp hopens
      exact ⟨htype, hwell.cri⟩
    · intro hgood
      obtain ⟨htype, hcri⟩ := hgood haccepts
      have hfits : WellFormedConnect frame.body := ⟨haccepts.reads, hcri⟩
      have hall := And.intro hfits (And.intro htype haccepts.slot)
      exact ⟨iff_of_true hopens hall, fun hnot => absurd hall hnot⟩
  · have hrefuses := handleConnect_refuses env src state.nextChannelId haccepts
    refine iff_of_true ⟨iff_of_false ?_ ?_, fun _ => hrefuses⟩ fun h => absurd h haccepts
    · rintro ⟨t, ht⟩
      rw [hrefuses.1] at ht
      exact List.cons_ne_nil t [] (List.self_eq_append_right.mp ht)
    · rintro ⟨hwell, htype, hslot⟩
      exact haccepts ⟨hwell.toReadsConnect, htype ▸ by decide, hslot⟩

def connectBody (type : UInt8) : List UInt8 :=
  (Hpai.natUdp 3671).toBytes ++ ((Hpai.natUdp 3671).toBytes ++
    [criCrdLen, type, tunnelLinklayer, 0x00])

def connectDatagram (type : UInt8) : List UInt8 :=
  [0x06, 0x10, 0x02, 0x05, 0x00, 0x1A] ++ connectBody type

theorem tunnel_request_served :
    let served := (ServerState.start none none).handlePacket (calm 0)
      (.v4 ⟨192, 168, 1, 2⟩ 50000) (connectDatagram tunnelConnection)
    ServesConnect (connectBody tunnelConnection) [] served.1.tunnels served.2.sends := by
  have hserved := @connect_served_iff (calm 0) (.start none none) (.v4 ⟨192, 168, 1, 2⟩ 50000)
    (connectDatagram tunnelConnection) ⟨.connectRequest, connectBody tunnelConnection⟩ rfl rfl
  exact hserved.mpr fun _ => ⟨by decide, by decide⟩

/-- A request for a remote-logging connection opens a tunnel. -/
theorem remoteLogging_opens :
    ¬ ∀ (env : Env) (state : ServerState) (src : SocketAddr) (data : List UInt8)
      (frame : KnxIpFrame), KnxIpFrame.parse data = .ok frame →
        frame.serviceType = .connectRequest →
        ServesConnect frame.body state.tunnels (state.handlePacket env src data).1.tunnels
          (state.handlePacket env src data).2.sends := by
  intro h
  have hserves := h (calm 0) (.start none none) (.v4 ⟨192, 168, 1, 2⟩ 50000)
    (connectDatagram 0x06) ⟨.connectRequest, connectBody 0x06⟩ rfl rfl
  exact absurd (hserves.opened.mp ⟨_, rfl⟩).2.1 (by decide)

end KnxRs.TunnelServer
