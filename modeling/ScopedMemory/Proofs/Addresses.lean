import ScopedMemory.Proofs.Filling
import ScopedMemory.Proofs.Turning

/-! Addresses in memory.

A cell holds the eight bytes of an address. Whoever reads it in the order in which it was written
finds the address again, and in the other order the address with its bytes reversed
(`State.addressAt_store`). What is found is a segment of its own: it lies at the address, in a scope
that was opened for it and is never closed (`State.Points`). A layout with a target says how large
the segment is, and asks for an address at the target's alignment. Address layouts are no stricter
than an address is wide, so cells can stand side by side, and an index counts them. -/
namespace ScopedMemory

/-! ### Reversed words -/

namespace Word

/-- The byte of a word that has this place, the least significant one being the first. -/
def byte (w : Word) (place : Nat) : Nat := (w.toNat >>> (8 * place)) % 256

/-- The words have the same bytes, in opposite orders. -/
def Reversed (a b : Word) : Prop := ∀ place < 8, b.byte place = a.byte (7 - place)

end Word

theorem getElem?_bytesOfNat {count place : Nat} (n : Nat) (h : place < count) :
    (bytesOfNat count n)[place]? = some (UInt8.ofNat ((n >>> (8 * place)) % 256)) := by
  induction count generalizing n place with
  | zero => cases h
  | succ count ih =>
    cases place with
    | zero => rfl
    | succ place =>
      have hshift : (n / 256) >>> (8 * place) = n >>> (8 * (place + 1)) := by
        rw [Nat.mul_succ, Nat.add_comm, Nat.shiftRight_add, Nat.shiftRight_eq_div_pow n 8]
      rw [bytesOfNat, List.getElem?_cons_succ, ih _ (Nat.lt_of_succ_lt_succ h), hshift]

/-- The eight bytes of a word, in reverse, are those of the reversed word. -/
theorem Word.reversed_natOfBytes (w : Word) :
    w.Reversed (UInt64.ofNat (natOfBytes (bytesOfNat 8 w.toNat).reverse)) := by
  intro place hplace
  have hcount : place < (bytesOfNat 8 w.toNat).length := by
    rw [length_bytesOfNat]
    exact hplace
  have hlength : (bytesOfNat 8 w.toNat).reverse.length = 8 := by
    rw [List.length_reverse, length_bytesOfNat]
  have hbound := natOfBytes_lt (bytesOfNat 8 w.toNat).reverse
  have hback := bytesOfNat_natOfBytes (bytesOfNat 8 w.toNat).reverse
  rw [hlength] at hbound hback
  have hword : (UInt64.ofNat (natOfBytes (bytesOfNat 8 w.toNat).reverse)).toNat =
      natOfBytes (bytesOfNat 8 w.toNat).reverse := UInt64.toNat_ofNat_of_lt' hbound
  -- One byte of the list, found from the reversed word and from the word.
  have hbyte := getElem?_bytesOfNat (natOfBytes (bytesOfNat 8 w.toNat).reverse) hplace
  rw [hback, List.getElem?_reverse hcount, length_bytesOfNat,
    getElem?_bytesOfNat w.toNat (show 8 - 1 - place < 8 by omega)] at hbyte
  have hsame := congrArg UInt8.toNat (Option.some.inj hbyte)
  rw [UInt8.toNat_ofNat_of_lt' (Nat.mod_lt _ (by decide)),
    UInt8.toNat_ofNat_of_lt' (Nat.mod_lt _ (by decide))] at hsame
  rw [byte, byte, hword]
  exact hsame.symm

/-- Written in one order and read in the other, an address comes back reversed. -/
theorem Carrier.reversed_decode {order other : ByteOrder} (h : order ≠ other) (address : Word) :
    Word.Reversed address (Carrier.decode .ulong other (Carrier.encode .ulong order address)) := by
  have hturned : other.arrange (order.arrange (bytesOfNat 8 address.toNat)) =
      (bytesOfNat 8 address.toNat).reverse := by
    rw [← ByteOrder.arrange_reverse h, ByteOrder.arrange_arrange]
  show Word.Reversed address (UInt64.ofNat (natOfBytes
    (other.arrange (order.arrange (bytesOfNat 8 address.toNat)))))
  rw [hturned]
  exact Word.reversed_natOfBytes address

/-! ### Layouts of addresses -/

theorem LayoutExpr.modifyAddress_alignment {layout next : AddressLayout}
    {modifier : AddressModifier LayoutExpr}
    (h : LayoutExpr.modifyAddress layout modifier = .ok next) :
    next.alignment = layout.alignment ∨ next.alignment = .one := by
  cases modifier with
  | unaligned =>
    rw [modifyAddress] at h
    obtain rfl := Except.ok.inj h
    exact .inr rfl
  | order o =>
    rw [modifyAddress] at h
    obtain rfl := Except.ok.inj h
    exact .inl rfl
  | target e =>
    rw [modifyAddress] at h
    obtain ⟨built, -, h⟩ := bind_eq_ok.mp h
    obtain rfl := pure_eq_ok.mp h
    exact .inl rfl
  | noTarget =>
    rw [modifyAddress] at h
    obtain rfl := Except.ok.inj h
    exact .inl rfl

theorem LayoutExpr.buildAddress_alignment {layout built : AddressLayout}
    {modifiers : List (AddressModifier LayoutExpr)}
    (h : LayoutExpr.buildAddress layout modifiers = .ok built) :
    built.alignment = layout.alignment ∨ built.alignment = .one := by
  induction modifiers generalizing layout with
  | nil =>
    rw [buildAddress] at h
    obtain rfl := Except.ok.inj h
    exact .inl rfl
  | cons modifier rest ih =>
    rw [buildAddress] at h
    obtain ⟨next, hnext, h⟩ := bind_eq_ok.mp h
    rcases ih h with hsame | hone
    · rw [hsame]
      exact modifyAddress_alignment hnext
    · exact .inr hone

/-- Cells of addresses can stand side by side. -/
theorem AddressExpr.alignment_le {e : AddressExpr} {layout : AddressLayout}
    (h : e.build = .ok layout) : layout.alignment.bytes ≤ AddressLayout.width := by
  rcases LayoutExpr.buildAddress_alignment h with hsame | hone
  · rw [hsame]
    decide
  · rw [hone]
    decide

namespace State
variable {s s' : State} {t : Thread} {cell value : Segment} {layout : AddressLayout} {offset : Word}

/-- The outcome is a writable native segment at the address. Its scope is new: it is alive, cannot
be closed, and is all that has changed. -/
structure Points (s : State) (address size : Word) (made : Segment × State) : Prop where
  segment : made.1 = ⟨address, size, .native, false, made.1.scope⟩
  fresh : s.scopes.size ≤ made.1.scope
  alive : made.2.isAlive made.1.scope = true
  lasting : (made.2.scope made.1.scope).discipline = .global
  others : ∀ id < s.scopes.size, made.2.scope id = s.scope id
  same : made.2 = { s with scopes := made.2.scopes, journal := made.2.journal }

theorem atAddress_points (s : State) (address size : Word) :
    Points s address size (s.atAddress address size) := by
  have hself : (s.newScope .global).2.scope s.scopes.size = { discipline := .global } :=
    scope_push_self s _
  exact
    { segment := rfl
      fresh := Nat.le_refl _
      alive := by
        show ((s.newScope .global).2.scope s.scopes.size).isAlive = true
        rw [hself]
        rfl
      lasting := by
        show ((s.newScope .global).2.scope s.scopes.size).discipline = .global
        rw [hself]
      others := fun id hid => scope_push_other s _ (Nat.ne_of_lt hid)
      same := rfl }

/-- What comes of following an address: without a target an empty segment, and with one a segment of
the target's size, or a complaint exactly if the address does not have its alignment. -/
def Follows (s : State) (address : Word) (target : Option Shape)
    (outcome : Except AccessError (Segment × State)) : Prop :=
  match target with
  | none => ∃ made, outcome = .ok made ∧ Points s address 0 made
  | some shape =>
    (outcome = .error (.misaligned address shape.alignment.bytes) ↔
      ¬ shape.alignment.bytes.toNat ∣ address.toNat) ∧
    (shape.alignment.bytes.toNat ∣ address.toNat →
      ∃ made, outcome = .ok made ∧ Points s address shape.size made)

/-- Once a cell can be read, its address is followed. -/
theorem getAddress_follows
    (hcheck : s.check t cell offset AddressLayout.width layout.alignment.bytes .read = .ok ()) :
    Follows s (s.addressAt cell layout offset) layout.target
      (s.getAddress t cell layout offset) := by
  unfold getAddress Follows
  rw [hcheck]
  generalize s.addressAt cell layout offset = address
  cases layout.target with
  | none => exact ⟨_, rfl, atAddress_points s address 0⟩
  | some shape =>
    have hdvd : address.offAlignment shape.alignment.bytes = false ↔
        shape.alignment.bytes.toNat ∣ address.toNat := by
      rw [Word.offAlignment_eq_false_iff, Alignment.toNat_bytes]
    cases hoff : address.offAlignment shape.alignment.bytes with
    | true =>
      have hnot : ¬ shape.alignment.bytes.toNat ∣ address.toNat := fun hd =>
        Bool.false_ne_true ((hdvd.mpr hd).symm.trans hoff)
      refine ⟨⟨fun _ => hnot, fun _ => ?_⟩, fun hd => absurd hd hnot⟩
      simp [hoff, bind, Except.bind, throw, throwThe, MonadExceptOf.throw]
    | false =>
      refine ⟨⟨fun h => ?_, fun hnot => absurd (hdvd.mp hoff) hnot⟩,
        fun _ => ⟨_, ?_, atAddress_points s address shape.size⟩⟩
      · simp [hoff, bind, Except.bind, pure, Except.pure] at h
      · simp [hoff, bind, Except.bind, pure, Except.pure]

/-- **What a cell holds** depends on the order in which it is read. -/
theorem addressAt_store (s : State) (cell : Segment) (layout : AddressLayout) (offset : Word)
    (written order : ByteOrder) (address : Word) :
    let found := (s.store cell offset (Carrier.encode .ulong written address)).addressAt cell
      (layout.withOrder order) offset
    (order = written → found = address) ∧ (order ≠ written → address.Reversed found) := by
  have hlength : (Carrier.encode .ulong written address).length = AddressLayout.width.toNat :=
    Carrier.length_encode .ulong written address
  have hroom : (Carrier.encode .ulong written address).length ≤ Word.limit :=
    Nat.le_of_lt (hlength ▸ Word.toNat_lt AddressLayout.width)
  have hheld := bytesAt_store (s := s) (x := cell) offset hroom
  rw [hlength] at hheld
  simp only [addressAt, hheld, AddressLayout.withOrder]
  refine ⟨?_, fun hne => Carrier.reversed_decode (Ne.symm hne) address⟩
  rintro rfl
  exact Carrier.decode_encode (c := .ulong) order address

/-- **A cell is read back.** -/
theorem getAddress_of_setAddress (h : s.setAddress t cell layout offset value = .ok s')
    (order : ByteOrder) :
    ∃ address, (order = layout.order → address = value.address) ∧
      (order ≠ layout.order → value.address.Reversed address) ∧
      Follows s' address layout.target (s'.getAddress t cell (layout.withOrder order) offset) := by
  unfold setAddress at h
  split at h
  · cases h
  · obtain ⟨⟨⟩, hcheck, h⟩ := bind_eq_ok.mp h
    obtain rfl := pure_eq_ok.mp h
    obtain ⟨hsame, hother⟩ := addressAt_store s cell layout offset layout.order order value.address
    exact ⟨_, hsame, hother, getAddress_follows (check_read hcheck)⟩

/-- An index counts cells, as long as there is such an offset. -/
theorem indexOffset_address (cell : Segment) (index : Word)
    (narrow : layout.alignment.bytes ≤ AddressLayout.width) :
    indexOffset cell layout.shape index =
      if index.toNat * 8 < Word.limit then .ok (index * 8)
      else .error (.outOfBounds Word.last 8 cell.size) := by
  have hwide : ¬ AddressLayout.width < layout.alignment.bytes := UInt64.not_lt.mpr narrow
  have hproduct : index.mul? AddressLayout.width =
      if index.toNat * 8 < Word.limit then some (index * 8) else none := rfl
  simp only [indexOffset, AddressLayout.shape, if_neg hwide, hproduct]
  by_cases h : index.toNat * 8 < Word.limit
  · rw [if_pos h, if_pos h]
  · rw [if_neg h, if_neg h]
    rfl

/-- **Addresses.** Where an address was stored it is found again, and followed to an empty segment,
or to one of its target's size if it is aligned for that. Read in the other byte order it is
reversed. An index stands for eight times as large an offset. -/
theorem addresses_read_back (layout : AddressLayout) :
    (∀ (s s' : State) (t : Thread) (cell : Segment) (offset : Word) (value : Segment),
      s.setAddress t cell layout offset value = .ok s' →
      Follows s' value.address layout.target (s'.getAddress t cell layout offset) ∧
      ∀ order, order ≠ layout.order → ∃ address, value.address.Reversed address ∧
        Follows s' address layout.target (s'.getAddress t cell (layout.withOrder order) offset)) ∧
    ∀ e : AddressExpr, e.build = .ok layout →
      ∀ (s : State) (t : Thread) (cell : Segment) (index : Word) (value : Segment),
        (index.toNat * 8 < Word.limit →
          (index * 8).toNat = index.toNat * 8 ∧
          s.getAddressAt t cell layout index = s.getAddress t cell layout (index * 8) ∧
          s.setAddressAt t cell layout index value = s.setAddress t cell layout (index * 8) value) ∧
        (Word.limit ≤ index.toNat * 8 →
          s.getAddressAt t cell layout index = .error (.outOfBounds Word.last 8 cell.size) ∧
          s.setAddressAt t cell layout index value =
            .error (.outOfBounds Word.last 8 cell.size)) := by
  refine ⟨fun s s' t cell offset value h => ⟨?_, fun order hne => ?_⟩,
    fun e built s t cell index value => ?_⟩
  · obtain ⟨address, hsame, -, hfollows⟩ := getAddress_of_setAddress h layout.order
    rw [hsame rfl] at hfollows
    exact hfollows
  · obtain ⟨address, -, hreversed, hfollows⟩ := getAddress_of_setAddress h order
    exact ⟨address, hreversed hne, hfollows⟩
  · have hoffset := indexOffset_address cell index (AddressExpr.alignment_le built)
    refine ⟨fun hword => ?_, fun hover => ?_⟩
    · rw [if_pos hword] at hoffset
      refine ⟨?_, ?_, ?_⟩
      · rw [UInt64.toNat_mul]
        exact Nat.mod_eq_of_lt hword
      · rw [getAddressAt, hoffset]
        rfl
      · rw [setAddressAt, hoffset]
        rfl
    · rw [if_neg (Nat.not_lt.mpr hover)] at hoffset
      refine ⟨?_, ?_⟩
      · rw [getAddressAt, hoffset]
        rfl
      · rw [setAddressAt, hoffset]
        rfl

/-- An address at an odd offset, high byte first. It has the alignment of its target, which it would
not have if it were reversed. -/
theorem addresses_read_back_odd :
    let cell : Segment := ⟨16, 24, .native, false, processScope⟩
    let value : Segment := ⟨0x0102030405060708, 5, .native, true, processScope⟩
    let e : AddressExpr := [.unaligned, .order .big, .target (.shape 16 8)]
    let layout : AddressLayout := ⟨.one, .big, some ⟨16, Carrier.ulong.alignment⟩⟩
    e.build = .ok layout ∧
    (∃ s', (initial .bump).setAddress 1 cell layout 3 value = .ok s' ∧
      (∃ made, s'.getAddress 1 cell layout 3 = .ok made ∧
        Points s' 0x0102030405060708 16 made) ∧
      ∃ address, value.address.Reversed address ∧
        Follows s' address layout.target (s'.getAddress 1 cell (layout.withOrder .little) 3)) ∧
    (initial .bump).getAddressAt 1 cell layout 2 = (initial .bump).getAddress 1 cell layout 16 := by
  intro cell value e layout
  have hbuilt : e.build = .ok layout := rfl
  have hok : ((initial .bump).setAddress 1 cell layout 3 value).isOk = true := by decide +kernel
  obtain ⟨hcell, hindex⟩ := addresses_read_back layout
  obtain ⟨hword, -⟩ := hindex e hbuilt (initial .bump) 1 cell 2 value
  refine ⟨hbuilt, ?_, (hword (by decide)).2.1⟩
  cases hset : (initial .bump).setAddress 1 cell layout 3 value with
  | error e =>
    rw [hset] at hok
    cases hok
  | ok s' =>
    obtain ⟨⟨-, hfollows⟩, hreversed⟩ := hcell _ s' 1 cell 3 value hset
    exact ⟨s', rfl, hfollows (by decide +kernel), hreversed .little (by decide)⟩

end State

end ScopedMemory
