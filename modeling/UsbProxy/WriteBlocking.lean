import UsbProxy.BulkExchange
import UsbProxy.Library.Runs

/-!
# Blocking of writes

With `block_writes` on and in-band signalling off the mass storage plugin keeps the wrappers and the
data of WRITE(10) from the device and answers in its place with a false status after the last block.
`blocked_iff` says in which sessions it does that, and nothing to other packets.
-/

namespace UsbProxy

namespace MassStorage

variable (charSigned : Bool) {speed : BulkSpeed} {m : MassStorage} {p : Packet}

/-- The plugin blocks writes, and is in one of the states it sets. -/
structure Guarding (m : MassStorage) : Prop where
  blockWrites : m.blockWrites = true
  inbandSignalling : m.inbandSignalling = false
  state : m.state = .idle ∨ m.state = .read ∨ m.state = .write

/-- Nothing happened to the packet, and no tag was queued. -/
structure Spared (f : FilteredPacket) : Prop where
  transmit : f.left.transmit = f.sent.transmit
  queued : f.queued = []

/-- The packets of an exchange left as claimed for a blocked WRITE(10), or for something else. -/
structure Blocking (o : FilteredExchange speed) : Prop where
  command : o.exchange.command.isWrite10 = true →
    ∀ f ∈ o.command, f.left.transmit = false ∧ f.queued = []
  data : o.exchange.command.isWrite10 = true → ∀ f ∈ o.data, f.left.transmit = false
  before : o.exchange.command.isWrite10 = true → ∀ f ∈ o.data.dropLast, f.queued = []
  once : o.exchange.command.isWrite10 = true → o.data.flatMap FilteredPacket.queued =
    if o.exchange.blocks = 0 then [] else [o.exchange.command.commandTag]
  others : o.exchange.command.isWrite10 = false → ∀ f ∈ o.command ++ o.data, Spared f
  status : ∀ f ∈ o.status, Spared f

/-- One of the next `k` packets that count as written would end a command that the plugin counts
for. -/
def Reaches (m : MassStorage) (k : ℕ) : Prop :=
  ∃ i < k, m.blockOffset + UInt32.ofNat (i + 1) = m.blockCount

/-- The data of a WRITE(10) is seen as such, and no other data is. -/
def Distinguishes (m : MassStorage) (e : BulkExchange speed) : Prop :=
  if e.command.isWrite10 then speed = .high ∨ e.data = []
  else e.command.isRead10 = true ∨ (m.state = .write → speed = .high →
    (∀ p ∈ e.data, p.transmit = false) ∧ ¬ m.Reaches e.data.length)

/-! ## One packet -/

theorem Guarding.write (h : m.Guarding) (hstate : m.state = .write)
    (hp : p.wLength = BulkSpeed.high.maxPacketSize) :
    (m.filterPacket charSigned p).2.transmit = false ∧
      (m.filterPacket charSigned p).1.pipe =
        m.pipe ++ (if m.blockOffset + 1 = m.blockCount then [m.tag] else []) ∧
      (m.filterPacket charSigned p).1.blockOffset = m.blockOffset + 1 ∧
      (m.filterPacket charSigned p).1.blockCount = m.blockCount ∧
      (m.filterPacket charSigned p).1.tag = m.tag ∧
      (m.filterPacket charSigned p).1.state = .write ∧ (m.filterPacket charSigned p).1.Guarding := by
  obtain ⟨inbandBlockWrites, heq⟩ := filterWrite_eq charSigned m p
  rw [filterPacket_write hp hstate, heq]
  refine ⟨?_, ?_, if_pos h.blockWrites, rfl, rfl, hstate, h.blockWrites, h.inbandSignalling, h.state⟩
  · exact congrArg Packet.transmit (if_pos h.blockWrites)
  · by_cases hcount : m.blockOffset + 1 = m.blockCount
    · rw [if_pos hcount, if_pos (And.intro h.blockWrites hcount)]
    · rw [if_neg hcount, if_neg fun h : _ ∧ _ => hcount h.2, List.append_nil]

theorem Guarding.quiet (h : m.Guarding) (hp : p.wLength = speed.maxPacketSize)
    (hquiet : speed = .full ∨ m.state ≠ .write) :
    (m.filterPacket charSigned p).2.transmit = p.transmit ∧
      (m.filterPacket charSigned p).1.pipe = m.pipe ∧
      (m.filterPacket charSigned p).1.state = m.state ∧ (m.filterPacket charSigned p).1.Guarding := by
  cases speed with
  | full =>
    rw [filterPacket_full hp]
    exact ⟨rfl, rfl, rfl, h⟩
  | high =>
    obtain hidle | hread | hwrite := h.state
    · rw [filterPacket_idle hp hidle]
      exact ⟨rfl, rfl, rfl, h⟩
    · rw [filterPacket_read hp hread, filterRead_eq]
      refine ⟨?_, rfl, rfl, h.blockWrites, h.inbandSignalling, h.state⟩
      dsimp only
      split_ifs <;> rfl
    · exact absurd hwrite (hquiet.resolve_left (by decide))

theorem Guarding.status (h : m.Guarding) (hp : isWrapper p 13 0x53 = true) :
    (m.filterPacket charSigned p).2.transmit = p.transmit ∧
      (m.filterPacket charSigned p).1.pipe = m.pipe ∧ (m.filterPacket charSigned p).1.Guarding := by
  rw [filterPacket_status hp]
  exact ⟨rfl, rfl, h.blockWrites, h.inbandSignalling, .inl rfl⟩

/-! ## Packet after packet -/

theorem spared_of_step (Inv : MassStorage → Prop) (ps : List Packet)
    (hstep : ∀ (m : MassStorage), ∀ p ∈ ps, Inv m →
      (m.filterPacket charSigned p).2.transmit = p.transmit ∧
        (m.filterPacket charSigned p).1.pipe = m.pipe ∧ Inv (m.filterPacket charSigned p).1)
    (h : Inv m) :
    (∀ f ∈ (m.filterAll charSigned ps).1, Spared f) ∧ Inv (m.filterAll charSigned ps).2 := by
  induction ps generalizing m with
  | nil => exact ⟨fun f hf => absurd hf List.not_mem_nil, h⟩
  | cons p ps ih =>
    obtain ⟨htransmit, hpipe, hinv⟩ := hstep m p (List.mem_cons_self ..) h
    obtain ⟨hspared, hafter⟩ := ih (fun m p hp => hstep m p (List.mem_cons_of_mem _ hp)) hinv
    refine ⟨?_, hafter⟩
    refine List.forall_mem_cons.2 ⟨⟨htransmit, ?_⟩, hspared⟩
    show List.drop m.pipe.length (m.filterPacket charSigned p).1.pipe = []
    rw [hpipe, List.drop_length]

/-- The data of a WRITE(10) that is seen as such: all of it is withheld, and the tag is queued
wherever the offset reaches the count. -/
theorem Guarding.writeAll (h : m.Guarding) (hstate : m.state = .write) (ps : List Packet)
    (hps : ∀ p ∈ ps, p.wLength = BulkSpeed.high.maxPacketSize) :
    (∀ f ∈ (m.filterAll charSigned ps).1, f.left.transmit = false) ∧
      (m.filterAll charSigned ps).1.map FilteredPacket.queued = (List.range ps.length).map (fun i =>
        if m.blockOffset + UInt32.ofNat (i + 1) = m.blockCount then [m.tag] else []) ∧
      (m.filterAll charSigned ps).2.Guarding := by
  induction ps generalizing m with
  | nil => exact ⟨fun f hf => absurd hf List.not_mem_nil, rfl, h⟩
  | cons p ps ih =>
    rw [List.forall_mem_cons] at hps
    obtain ⟨htransmit, hpipe, hoffset, hcount, htag, hstate', hnext⟩ :=
      h.write charSigned hstate hps.1
    obtain ⟨hblocked, hqueued, hafter⟩ := ih hnext hstate' hps.2
    refine ⟨List.forall_mem_cons.2 ⟨htransmit, hblocked⟩, ?_, hafter⟩
    rw [List.length_cons, List.range_succ_eq_map, List.map_cons, List.map_map]
    unfold filterAll
    dsimp only
    rw [List.map_cons, hqueued, hpipe, List.drop_left, hoffset, hcount, htag]
    refine congrArg (_ :: ·) (List.map_congr_left fun i _ => ?_)
    show (if m.blockOffset + 1 + UInt32.ofNat (i + 1) = _ then _ else _) =
      if m.blockOffset + UInt32.ofNat (i + 1 + 1) = _ then _ else _
    rw [UInt32.ofNat_add (i + 1) 1, UInt32.add_assoc, UInt32.add_comm 1]
    rfl

theorem Guarding.quietAll (h : m.Guarding) (ps : List Packet)
    (hps : ∀ p ∈ ps, p.wLength = speed.maxPacketSize) (hquiet : speed = .full ∨ m.state ≠ .write) :
    (∀ f ∈ (m.filterAll charSigned ps).1, Spared f) ∧ (m.filterAll charSigned ps).2.Guarding := by
  have hstep (n : MassStorage) (p : Packet) (hp : p ∈ ps) (hn : n.Guarding ∧ n.state = m.state) :
      (n.filterPacket charSigned p).2.transmit = p.transmit ∧
        (n.filterPacket charSigned p).1.pipe = n.pipe ∧
        (n.filterPacket charSigned p).1.Guarding ∧
        (n.filterPacket charSigned p).1.state = m.state := by
    obtain ⟨htransmit, hpipe, hstate, hnext⟩ :=
      hn.1.quiet charSigned (hps p hp) (hquiet.imp_right fun hne => by rwa [hn.2])
    exact ⟨htransmit, hpipe, hnext, hstate.trans hn.2⟩
  obtain ⟨hspared, hafter⟩ := spared_of_step charSigned _ ps hstep ⟨h, rfl⟩
  exact ⟨hspared, hafter.1⟩

theorem Guarding.statusAll (h : m.Guarding) (ps : List Packet)
    (hps : ∀ p ∈ ps, isWrapper p 13 0x53 = true) :
    (∀ f ∈ (m.filterAll charSigned ps).1, Spared f) ∧ (m.filterAll charSigned ps).2.Guarding :=
  spared_of_step charSigned Guarding ps (fun _ p hp hn => hn.status charSigned (hps p hp)) h

theorem map_sent (m : MassStorage) (ps : List Packet) :
    (m.filterAll charSigned ps).1.map FilteredPacket.sent = ps := by
  induction ps generalizing m with
  | nil => rfl
  | cons p ps ih => exact congrArg (p :: ·) (ih _)

/-! ## One exchange -/

section Exchange

variable (m) (e : BulkExchange speed)

theorem observe_command :
    (m.observe charSigned e).command =
      [⟨e.command, (m.filterCommand e.command).2,
        (m.filterCommand e.command).1.pipe.drop m.pipe.length⟩] := by
  unfold observe filterExchange filterAll
  rw [filterPacket_command e.isCommand]
  rfl

theorem observe_data : (m.observe charSigned e).data =
    ((m.filterCommand e.command).1.filterAll charSigned e.data).1 := by
  rw [← filterPacket_exchange charSigned]
  rfl

end Exchange

variable {e : BulkExchange speed}

theorem Guarding.command_write (h : m.Guarding) (hwrite : p.isWrite10 = true) :
    m.filterCommand p =
      ({ m with
          state := .write
          tag := p.commandTag
          blockCount := p.transferBlocks
          baseAddress := p.transferAddress
          blockOffset := 0 }, { p with transmit := false }) := by
  rw [filterCommand_write hwrite, h.inbandSignalling, h.blockWrites]
  rfl

theorem Guarding.command (h : m.Guarding) (p : Packet) : (m.filterCommand p).1.Guarding := by
  cases hwrite : p.isWrite10 with
  | true =>
    rw [h.command_write hwrite]
    exact ⟨h.blockWrites, h.inbandSignalling, .inr (.inr rfl)⟩
  | false =>
    cases hread : p.isRead10 with
    | true =>
      rw [filterCommand_read hread]
      exact ⟨h.blockWrites, h.inbandSignalling, .inr (.inl rfl)⟩
    | false =>
      rw [filterCommand_other hread hwrite]
      exact h

theorem Guarding.step (h : m.Guarding) (e : BulkExchange speed) :
    (m.filterExchange charSigned e).2.Guarding := by
  have hcommand : (m.filterPacket charSigned e.command).1.Guarding := by
    rw [filterPacket_exchange]
    exact h.command e.command
  have hdata : ((m.filterPacket charSigned e.command).1.filterAll charSigned e.data).2.Guarding := by
    by_cases hquiet : speed = .full ∨ (m.filterPacket charSigned e.command).1.state ≠ .write
    · exact (hcommand.quietAll charSigned e.data e.isData hquiet).2
    · rw [not_or, not_not] at hquiet
      obtain rfl := BulkSpeed.eq_high hquiet.1
      exact (hcommand.writeAll charSigned hquiet.2 e.data e.isData).2.2
  exact (hdata.statusAll charSigned e.status e.isStatus).2

theorem spared_status (m : MassStorage) (e : BulkExchange speed) :
    ∀ f ∈ (m.observe charSigned e).status, Spared f := by
  refine (spared_of_step charSigned (fun _ => True) e.status (fun n p hp _ => ?_) trivial).1
  rw [filterPacket_status (e.isStatus p hp)]
  exact ⟨rfl, rfl, trivial⟩

theorem spared_command (hwrite : e.command.isWrite10 = false) :
    ∀ f ∈ (m.observe charSigned e).command, Spared f := by
  rw [observe_command, List.forall_mem_singleton]
  cases hread : e.command.isRead10 with
  | true =>
    rw [filterCommand_read hread]
    exact ⟨rfl, List.drop_length⟩
  | false =>
    rw [filterCommand_other hread hwrite]
    exact ⟨rfl, List.drop_length⟩

theorem blocks_eq_zero_iff (e : BulkExchange speed) : e.blocks = 0 ↔ e.data = [] := by
  have hwhole := e.isWhole
  have hpos : 0 < speed.maxPacketSize.toNat := by cases speed <;> decide
  rw [← List.length_eq_zero_iff]
  constructor
  · intro h0
    rw [h0, Nat.zero_mul] at hwhole
    exact (Nat.mul_eq_zero.1 hwhole).resolve_right (Nat.ne_of_gt hpos)
  · intro h0
    rw [h0, Nat.zero_mul] at hwhole
    exact (Nat.mul_eq_zero.1 hwhole.symm).resolve_right (by decide)

theorem queued_eq (tag : List Byte) (count : UInt32) (k : ℕ) (hk : count.toNat = k + 1) :
    (List.range (k + 1)).map (fun i => if 0 + UInt32.ofNat (i + 1) = count then [tag] else []) =
      List.replicate k [] ++ [[tag]] := by
  have hiff (i : ℕ) (hi : i < k + 1) : 0 + UInt32.ofNat (i + 1) = count ↔ i = k := by
    have hlt := count.toNat_lt
    rw [UInt32.zero_add, ← UInt32.toNat_inj,
      UInt32.toNat_ofNat_of_lt' (by unfold UInt32.size; omega), hk]
    omega
  rw [List.range_succ, List.map_append, List.map_singleton,
    if_pos ((hiff k (Nat.lt_succ_self k)).2 rfl)]
  congr 1
  rw [List.map_congr_left (g := fun _ => []), List.map_const', List.length_range]
  intro i hi
  rw [List.mem_range] at hi
  rw [if_neg fun h => Nat.ne_of_lt hi ((hiff i (by omega)).1 h)]

/-- What the data of a WRITE(10) comes to at high speed. -/
theorem Guarding.write_data {e : BulkExchange .high} (h : m.Guarding)
    (hwrite : e.command.isWrite10 = true) :
    (∀ f ∈ (m.observe charSigned e).data, f.left.transmit = false) ∧
      (m.observe charSigned e).data.map FilteredPacket.queued =
        if e.blocks = 0 then [] else List.replicate (e.blocks - 1) [] ++ [[e.command.commandTag]] := by
  have hnext := h.command e.command
  have hlen : e.data.length = e.blocks := Nat.eq_of_mul_eq_mul_right (by decide) e.isWhole
  have hcount := e.isCounted (by rw [hwrite, Bool.or_true])
  rw [observe_data]
  rw [h.command_write hwrite] at hnext ⊢
  obtain ⟨hblocked, hqueued, -⟩ := hnext.writeAll charSigned rfl e.data e.isData
  refine ⟨hblocked, hqueued.trans ?_⟩
  rw [hlen]
  cases hk : e.blocks with
  | zero => rfl
  | succ k => exact queued_eq _ _ k (hcount.symm.trans hk)

/-- A WRITE(10) whose data was withheld, with its tag queued for the last packet of it. -/
theorem Blocking.of_data {o : FilteredExchange speed} (hwrite : o.exchange.command.isWrite10 = true)
    (hcommand : ∀ f ∈ o.command, f.left.transmit = false ∧ f.queued = [])
    (hblocked : ∀ f ∈ o.data, f.left.transmit = false)
    (hqueued : o.data.map FilteredPacket.queued = if o.exchange.blocks = 0 then [] else
      List.replicate (o.exchange.blocks - 1) [] ++ [[o.exchange.command.commandTag]])
    (hstatus : ∀ f ∈ o.status, Spared f) : Blocking o := by
  refine ⟨fun _ => hcommand, fun _ => hblocked, fun _ f hf => ?_, fun _ => ?_,
    fun hno => absurd (hwrite.symm.trans hno) (by decide), hstatus⟩
  · have hmem := List.mem_map_of_mem (f := FilteredPacket.queued) hf
    rw [List.map_dropLast, hqueued] at hmem
    split_ifs at hmem
    · exact absurd hmem List.not_mem_nil
    · rw [List.dropLast_concat] at hmem
      exact List.eq_of_mem_replicate hmem
  · rw [List.flatMap_def, hqueued]
    split_ifs
    · rfl
    · rw [List.flatten_append, List.flatten_replicate_nil]
      rfl

/-- A WRITE(10) is blocked exactly when its data is long enough to be seen. -/
theorem blocking_write (h : m.Guarding) (hwrite : e.command.isWrite10 = true) :
    Blocking (m.observe charSigned e) ↔ speed = .high ∨ e.data = [] := by
  have hcommand : ∀ f ∈ (m.observe charSigned e).command,
      f.left.transmit = false ∧ f.queued = [] := by
    rw [observe_command, List.forall_mem_singleton, h.command_write hwrite]
    exact ⟨rfl, List.drop_length⟩
  have hnext := h.command e.command
  have hdata := observe_data charSigned m e
  constructor
  · intro hb
    by_contra hno
    rw [not_or] at hno
    have hquiet : speed = .full := by
      by_contra hne
      exact hno.1 (BulkSpeed.eq_high hne)
    have hspared := (hnext.quietAll charSigned e.data e.isData (.inl hquiet)).1
    have honce : (m.observe charSigned e).data.flatMap FilteredPacket.queued =
        if e.blocks = 0 then [] else [e.command.commandTag] := hb.once hwrite
    rw [hdata, List.flatMap_eq_nil_iff.2 fun f hf => (hspared f hf).queued,
      if_neg fun h0 => hno.2 ((blocks_eq_zero_iff e).1 h0)] at honce
    exact List.cons_ne_nil _ _ honce.symm
  · rintro (rfl | hnil)
    · obtain ⟨hblocked, hqueued⟩ := h.write_data charSigned hwrite
      exact .of_data hwrite hcommand hblocked hqueued (spared_status charSigned m e)
    · rw [hnil] at hdata
      refine .of_data hwrite hcommand ?_ ?_ (spared_status charSigned m e)
      · rw [hdata]
        exact fun f hf => absurd hf List.not_mem_nil
      · rw [hdata]
        exact (if_pos ((blocks_eq_zero_iff e).2 hnil)).symm

/-- Data taken for that of a WRITE(10) is left alone exactly when it is withheld already and there
is no tag to queue. -/
theorem Guarding.spared_write (h : m.Guarding) (hstate : m.state = .write) (ps : List Packet)
    (hps : ∀ p ∈ ps, p.wLength = BulkSpeed.high.maxPacketSize) :
    (∀ f ∈ (m.filterAll charSigned ps).1, Spared f) ↔
      (∀ p ∈ ps, p.transmit = false) ∧ ¬ m.Reaches ps.length := by
  obtain ⟨hblocked, hqueued, -⟩ := h.writeAll charSigned hstate ps hps
  have hsent : (∀ p ∈ ps, p.transmit = false) ↔
      ∀ f ∈ (m.filterAll charSigned ps).1, f.sent.transmit = false := by
    conv_lhs => rw [← map_sent charSigned m ps]
    exact List.forall_mem_map
  have hreaches : ¬ m.Reaches ps.length ↔ ∀ f ∈ (m.filterAll charSigned ps).1, f.queued = [] := by
    rw [← List.forall_mem_map (P := fun tags => tags = []), hqueued, List.forall_mem_map]
    unfold Reaches
    constructor
    · intro hno i hi
      exact if_neg fun heq => hno ⟨i, List.mem_range.1 hi, heq⟩
    · rintro hall ⟨i, hi, heq⟩
      have := hall i (List.mem_range.2 hi)
      rw [if_pos heq] at this
      exact List.cons_ne_nil _ _ this
  rw [hsent, hreaches]
  constructor
  · intro hspared
    exact ⟨fun f hf => (hspared f hf).transmit.symm.trans (hblocked f hf),
      fun f hf => (hspared f hf).queued⟩
  · rintro ⟨hfalse, hnone⟩ f hf
    exact ⟨(hblocked f hf).trans (hfalse f hf).symm, hnone f hf⟩

/-- What is not a WRITE(10) is left alone exactly when its data is not taken for that of one. -/
theorem blocking_other (h : m.Guarding) (hwrite : e.command.isWrite10 = false) :
    Blocking (m.observe charSigned e) ↔
      (e.command.isRead10 = true ∨ (m.state = .write → speed = .high →
        (∀ p ∈ e.data, p.transmit = false) ∧ ¬ m.Reaches e.data.length)) := by
  have hno : e.command.isWrite10 ≠ true := by rw [hwrite]; decide
  have hiff : Blocking (m.observe charSigned e) ↔
      ∀ f ∈ (m.observe charSigned e).data, Spared f := by
    constructor
    · intro hb f hf
      exact hb.others hwrite f (List.mem_append_right _ hf)
    · intro hdata
      exact ⟨fun h => absurd h hno, fun h => absurd h hno, fun h => absurd h hno,
        fun h => absurd h hno, fun _ => List.forall_mem_append.2 ⟨spared_command charSigned hwrite, hdata⟩,
        spared_status charSigned m e⟩
  have hnext := h.command e.command
  rw [hiff, observe_data]
  cases hread : e.command.isRead10 with
  | true =>
    rw [filterCommand_read hread] at hnext ⊢
    exact iff_of_true (hnext.quietAll charSigned e.data e.isData (.inr Stage.noConfusion)).1 (.inl rfl)
  | false =>
    rw [filterCommand_other hread hwrite] at hnext ⊢
    rw [or_iff_right Bool.noConfusion]
    by_cases hquiet : speed = .full ∨ m.state ≠ .write
    · refine iff_of_true (hnext.quietAll charSigned e.data e.isData hquiet).1 fun hstate hspeed => ?_
      obtain rfl | hne := hquiet
      · exact absurd hspeed (by decide)
      · exact absurd hstate hne
    · rw [not_or, not_not] at hquiet
      obtain rfl := BulkSpeed.eq_high hquiet.1
      rw [hnext.spared_write charSigned hquiet.2 e.data e.isData]
      exact ⟨fun hand _ _ => hand, fun himp => himp hquiet.2 rfl⟩

/-- **Write blocking.**  In every session of a plugin that blocks writes and has no in-band
signalling, the exchanges come out as they should exactly when data of WRITE(10), and no other data,
is seen as such. -/
theorem blocked_iff (cacheBlocks : Bool) (unblockPassword blockPassword tag : List Byte)
    (blockOffset baseAddress : UInt32) (es : List (BulkExchange speed)) :
    (∀ o ∈ Runs.outputs (step charSigned) (observe charSigned)
        (new true cacheBlocks false unblockPassword blockPassword tag blockOffset baseAddress) es,
      Blocking o) ↔
      Runs.Along (step charSigned) Distinguishes
        (new true cacheBlocks false unblockPassword blockPassword tag blockOffset baseAddress) es := by
  refine Runs.outputs_forall_iff Guarding ?_ ?_ ⟨rfl, rfl, .inl rfl⟩ es
  · rintro m e t ht - hm
    rw [← Option.some.inj ht]
    exact hm.step charSigned e
  · intro m e hm
    unfold Distinguishes
    cases hwrite : e.command.isWrite10 with
    | true => exact blocking_write charSigned hm hwrite
    | false => exact blocking_other charSigned hm hwrite

/-- One block written at full speed, in eight packets. -/
def fullSpeedWrite : BulkExchange .full where
  command := Packet.command10 0x2a 10 1
  blocks := 1
  data := List.replicate 8 (Packet.new 0x02 (some (List.replicate 64 0)) 64)
  status := []
  isCommand := by decide
  isData := fun _ hp => List.eq_of_mem_replicate hp ▸ rfl
  isWhole := rfl
  isCounted := fun _ => by decide
  isStatus := isWrapper_of_mem_nil

/-- None of the packets is withheld, and no status is queued. -/
theorem blocked_fails : ¬ ∀ o ∈ Runs.outputs (step false) (observe false)
    (new true false false [] [] [] 0 0) [fullSpeedWrite], Blocking o := by
  intro h
  have hb := h _ (List.mem_cons_self ..)
  rw [blocking_write false ⟨rfl, rfl, .inl rfl⟩ (by decide)] at hb
  exact hb.elim (fun hspeed => BulkSpeed.noConfusion hspeed) (fun hnil => List.cons_ne_nil _ _ hnil)

end MassStorage

end UsbProxy
