import LvlIp.Tcp.Options

/-!
# The option walk

What `tcp_walk_options` of `src/tcp_optparse.c` makes of an option area. An area is a list of
well-formed options and what follows them (`exists_serialise_append`): nothing, the end of the list,
or an option that does not fit. The walk notes the options of the list one by one and stops there
(`tcpWalkOptions_serialise`), so its result says what the list says (`tcpWalkOptions_says`).

`tcpWalkTrace` is the same walk, with the offsets it reads. A FEC-permitted option is looked at as a
whole before its length is compared, so the walk stays inside its area exactly when each one it
reaches has eight bytes (`staysInside_iff`).
-/

namespace LvlIp.Tcp

open Fec

/-! ## The grammar -/

/-- A well-formed option: a padding byte, or a kind, a length and some data. -/
inductive Opt
  | noop
  | tlv (kind : UInt8) (data : List UInt8) (known : 2 ≤ kind.toNat) (fits : data.length + 2 ≤ 255)

/-- The kind of an option. -/
def Opt.kind : Opt → UInt8
  | noop => 1
  | tlv kind _ _ _ => kind

/-- The data of an option. -/
def Opt.data : Opt → List UInt8
  | noop => []
  | tlv _ data _ _ => data

/-- The bytes of an option. -/
def Opt.bytes : Opt → List UInt8
  | noop => [1]
  | tlv kind data _ _ => kind :: UInt8.ofNat (data.length + 2) :: data

/-- The bytes of a list of options. -/
def serialise (opts : List Opt) : List UInt8 := opts.flatMap Opt.bytes

/-- What may follow the options: nothing, the end of the list and arbitrary bytes, or an option
without a length byte, with a length below 2, or with one beyond the area. -/
inductive OptsEnd : List UInt8 → Prop
  | nothing : OptsEnd []
  | stop (rest : List UInt8) : OptsEnd (0 :: rest)
  | noLength {kind : UInt8} (hkind : 2 ≤ kind.toNat) : OptsEnd [kind]
  | badLength {kind len : UInt8} {rest : List UInt8} (hkind : 2 ≤ kind.toNat)
      (hlen : len.toNat < 2 ∨ rest.length + 2 < len.toNat) : OptsEnd (kind :: len :: rest)

@[simp] theorem serialise_nil : serialise [] = [] := rfl

@[simp] theorem serialise_cons (o : Opt) (opts : List Opt) :
    serialise (o :: opts) = o.bytes ++ serialise opts := by
  simp [serialise]

theorem Opt.length_bytes_pos (o : Opt) : 0 < o.bytes.length := by
  cases o <;> simp [bytes]

theorem length_le_length_serialise (opts : List Opt) : opts.length ≤ (serialise opts).length := by
  induction opts with
  | nil => simp
  | cons o opts ih =>
    have := o.length_bytes_pos
    simp only [List.length_cons, serialise_cons, List.length_append]
    omega

/-- **Every area** is a list of options and what follows them. -/
theorem exists_serialise_append (area : List UInt8) :
    ∃ opts tail, area = serialise opts ++ tail ∧ OptsEnd tail := by
  induction h : area.length using Nat.strong_induction_on generalizing area with
  | _ n ih =>
    subst h
    rcases area with _ | ⟨kind, area⟩
    · exact ⟨[], [], rfl, .nothing⟩
    · by_cases h0 : kind = 0
      · exact ⟨[], _, rfl, h0 ▸ .stop area⟩
      · by_cases h1 : kind = 1
        · obtain ⟨opts, tail, rfl, htail⟩ := ih area.length (by simp) area rfl
          exact ⟨.noop :: opts, tail, by simp [Opt.bytes, h1], htail⟩
        · have hkind : 2 ≤ kind.toNat := by
            have h0 : kind.toNat ≠ 0 := fun h => h0 (UInt8.toNat_inj.mp h)
            have h1 : kind.toNat ≠ 1 := fun h => h1 (UInt8.toNat_inj.mp h)
            omega
          rcases area with _ | ⟨len, area⟩
          · exact ⟨[], _, rfl, .noLength hkind⟩
          · by_cases hlen : len.toNat < 2 ∨ area.length + 2 < len.toNat
            · exact ⟨[], _, rfl, .badLength hkind hlen⟩
            · have hlt := len.toNat_lt
              have hdata : (area.take (len.toNat - 2)).length + 2 = len.toNat := by
                rw [List.length_take]
                omega
              obtain ⟨opts, tail, hrest, htail⟩ := ih (area.drop (len.toNat - 2)).length
                (by simp; omega) _ rfl
              refine ⟨.tlv kind (area.take (len.toNat - 2)) hkind (by omega) :: opts, tail, ?_,
                htail⟩
              rw [serialise_cons, List.append_assoc, ← hrest, Opt.bytes, hdata, UInt8.ofNat_toNat]
              simp

/-! ## The walk over a list -/

/-- What the walk notes of an option. -/
def Opt.note (out : TcpParsedOpts) (o : Opt) : TcpParsedOpts :=
  tcpWalkOption o.bytes o.kind o.bytes.length out

/-- Bytes behind the option do not matter, even where they are looked at. -/
theorem tcpWalkOption_append (bytes rest : List UInt8) (kind : UInt8) (out : TcpParsedOpts) :
    tcpWalkOption (bytes ++ rest) kind bytes.length out =
      tcpWalkOption bytes kind bytes.length out := by
  have hget : ∀ i < bytes.length, (bytes ++ rest).getD i 0 = bytes.getD i 0 :=
    fun i hi => List.getD_append _ _ _ _ hi
  unfold tcpWalkOption ntohs
  by_cases h4 : bytes.length = 4
  · rw [hget 2 (by omega), hget 3 (by omega)]
    simp [h4, tcpOptlenFecPerm]
  · by_cases h8 : bytes.length = 8
    · rw [hget 2 (by omega), hget 3 (by omega), hget 4 (by omega), hget 6 (by omega),
        hget 7 (by omega)]
    · simp [h4, h8, tcpOptlenFecPerm]

theorem ne_of_two_le_toNat {kind : UInt8} (h : 2 ≤ kind.toNat) : kind ≠ 0 ∧ kind ≠ 1 := by
  constructor <;> rintro rfl <;> simp at h

theorem tcpWalkLoop_cons (n m : ℕ) (o : Opt) (rest : List UInt8) (out : TcpParsedOpts) :
    tcpWalkLoop (n + 1) (o.bytes ++ rest) (o.bytes.length + m) out =
      tcpWalkLoop n rest m (o.note out) := by
  cases o with
  | noop => simp [tcpWalkLoop, Opt.bytes, Opt.note, Opt.kind, tcpWalkOption, tcpOptFecPerm]
  | tlv kind data known fits =>
    have hlen : (UInt8.ofNat (data.length + 2)).toNat = data.length + 2 := by
      rw [UInt8.toNat_ofNat', Nat.mod_eq_of_lt (by omega)]
    obtain ⟨h0, h1⟩ := ne_of_two_le_toNat known
    have happ := tcpWalkOption_append (Opt.tlv kind data known fits).bytes rest kind out
    simp only [Opt.bytes, List.length_cons, List.cons_append] at happ ⊢
    rw [tcpWalkLoop]
    simp only [List.getD_cons_zero, List.getD_cons_succ, hlen]
    rw [if_neg (by omega), if_neg h0, if_neg h1, if_neg (by omega), if_neg (by omega), happ]
    simp only [Opt.note, Opt.bytes, Opt.kind, List.length_cons, List.drop_succ_cons,
      List.drop_left, Nat.add_sub_cancel_left]

theorem tcpWalkLoop_ends {tail : List UInt8} (htail : OptsEnd tail) (n : ℕ) (beyond : List UInt8)
    (out : TcpParsedOpts) : tcpWalkLoop n (tail ++ beyond) tail.length out = out := by
  cases n with
  | zero => rfl
  | succ n =>
    cases htail with
    | nothing => simp [tcpWalkLoop]
    | stop rest => simp [tcpWalkLoop]
    | @noLength kind hkind =>
      obtain ⟨-, h1⟩ := ne_of_two_le_toNat hkind
      simp [tcpWalkLoop, h1]
    | @badLength kind len rest hkind hlen =>
      obtain ⟨-, h1⟩ := ne_of_two_le_toNat hkind
      simp [tcpWalkLoop, h1]
      omega

theorem tcpWalkLoop_serialise {tail : List UInt8} (htail : OptsEnd tail) (opts : List Opt) {n : ℕ}
    (hn : opts.length ≤ n) (beyond : List UInt8) (out : TcpParsedOpts) :
    tcpWalkLoop n (serialise opts ++ (tail ++ beyond)) ((serialise opts).length + tail.length) out =
      opts.foldl Opt.note out := by
  induction opts generalizing n out with
  | nil =>
    rw [serialise_nil, List.nil_append, List.length_nil, zero_add, tcpWalkLoop_ends htail]
    rfl
  | cons o opts ih =>
    obtain ⟨n, rfl⟩ := Nat.exists_eq_succ_of_ne_zero (Nat.ne_of_gt (Nat.lt_of_lt_of_le
      (Nat.succ_pos opts.length) hn))
    rw [serialise_cons, List.append_assoc, List.length_append, add_assoc, tcpWalkLoop_cons,
      ih (Nat.le_of_succ_le_succ hn), List.foldl_cons]

/-- **The walk over an area** notes the options of its list one by one. -/
theorem tcpWalkOptions_serialise {tail : List UInt8} (htail : OptsEnd tail) (opts : List Opt)
    (beyond : List UInt8) (out : TcpParsedOpts) :
    tcpWalkOptions (serialise opts ++ tail ++ beyond) (serialise opts ++ tail).length out =
      opts.foldl Opt.note out := by
  have hle := length_le_length_serialise opts
  unfold tcpWalkOptions
  rw [List.append_assoc, List.length_append, tcpWalkLoop_serialise htail opts (by omega)]

/-! ## What a list says -/

/-- The value of an MSS option of four bytes, if it is one to go by. -/
def Opt.mssValue (o : Opt) : Option UInt16 :=
  if o.kind = 2 ∧ o.data.length = 2 ∧ 536 < ntohs o.data 0 ∧ ntohs o.data 0 ≤ 1460 then
    some (ntohs o.data 0)
  else none

/-- The option is a FEC-permitted option of eight bytes with the local geometry. -/
def Opt.IsFecPerm (o : Opt) : Prop :=
  o.kind = tcpOptFecPerm ∧ ∃ reserved, o.data = [fecWireVersion, UInt8.ofNat tcpFecDefaultK,
    UInt8.ofNat tcpFecDefaultR, reserved] ++ be16 (UInt16.ofNat tcpFecDefaultSymLen)

/-- A result says what a list of options says. -/
structure Says (opts : List Opt) (out : TcpParsedOpts) : Prop where
  mss : out.mss = (opts.filterMap Opt.mssValue).getLastD 0
  sackOk : out.sackOk = true ↔ ∃ o ∈ opts, o.kind = 4
  tsSeen : out.tsSeen = true ↔ ∃ o ∈ opts, o.kind = 8
  fecPerm : out.fecPerm = true ↔ ∃ o ∈ opts, o.IsFecPerm

/-- Two lists have the same options of every kind that the walk knows, each kind in its order. -/
def SameKnown (opts opts' : List Opt) : Prop :=
  ∀ kind ∈ [2, 4, 8, tcpOptFecPerm],
    opts.filter (fun o => o.kind = kind) = opts'.filter (fun o => o.kind = kind)

theorem Opt.note_tlv (out : TcpParsedOpts) (kind : UInt8) (data : List UInt8)
    (known : 2 ≤ kind.toNat) (fits : data.length + 2 ≤ 255) :
    (Opt.tlv kind data known fits).note out =
      tcpWalkOption (kind :: UInt8.ofNat (data.length + 2) :: data) kind (data.length + 2) out :=
  rfl

theorem Opt.note_noop (out : TcpParsedOpts) : Opt.noop.note out = out := rfl

@[simp] theorem Opt.note_mss (out : TcpParsedOpts) (o : Opt) :
    (o.note out).mss = o.mssValue.getD out.mss := by
  cases o with
  | noop => rfl
  | tlv kind data known fits =>
    rw [Opt.note_tlv]
    unfold tcpWalkOption Opt.mssValue
    have hval : ntohs (kind :: UInt8.ofNat (data.length + 2) :: data) 2 = ntohs data 0 := rfl
    simp only [hval, Opt.kind, Opt.data]
    by_cases h2 : kind = 2
    · simp only [h2, true_and, if_true]
      have hlen : data.length + 2 = 4 ↔ data.length = 2 := by omega
      simp only [hlen]
      split <;> rfl
    · simp only [h2, false_and, if_false]
      split_ifs <;> rfl

@[simp] theorem Opt.note_sackOk (out : TcpParsedOpts) (o : Opt) :
    (o.note out).sackOk = true ↔ out.sackOk = true ∨ o.kind = 4 := by
  cases o with
  | noop => simp [Opt.note_noop, Opt.kind]
  | tlv kind data known fits =>
    rw [Opt.note_tlv]
    unfold tcpWalkOption
    simp only [Opt.kind]
    by_cases h4 : kind = 4
    · simp [h4]
    · simp only [h4, if_false, or_false]
      split_ifs <;> rfl

@[simp] theorem Opt.note_tsSeen (out : TcpParsedOpts) (o : Opt) :
    (o.note out).tsSeen = true ↔ out.tsSeen = true ∨ o.kind = 8 := by
  cases o with
  | noop => simp [Opt.note_noop, Opt.kind]
  | tlv kind data known fits =>
    rw [Opt.note_tlv]
    unfold tcpWalkOption
    simp only [Opt.kind]
    by_cases h8 : kind = 8
    · simp [h8]
    · simp only [h8, if_false, or_false]
      split_ifs <;> rfl

/-- The comparisons of the walk pin down the data, the reserved byte apart. -/
theorem fecPerm_data_iff (data : List UInt8) :
    (data.length + 2 = tcpOptlenFecPerm ∧ data.getD 0 0 = fecWireVersion ∧
        (data.getD 1 0).toNat = tcpFecDefaultK ∧ (data.getD 2 0).toNat = tcpFecDefaultR ∧
        (ntohs data 4).toNat = tcpFecDefaultSymLen) ↔
      ∃ reserved, data = [fecWireVersion, UInt8.ofNat tcpFecDefaultK,
        UInt8.ofNat tcpFecDefaultR, reserved] ++ be16 (UInt16.ofNat tcpFecDefaultSymLen) := by
  constructor
  · rintro ⟨hlen, hversion, hk, hr, hsym⟩
    rcases data with _ | ⟨version, _ | ⟨k, _ | ⟨r, _ | ⟨reserved, _ | ⟨hi, _ | ⟨lo, _ | ⟨x, data⟩⟩⟩⟩⟩⟩⟩
      <;> simp [tcpOptlenFecPerm] at hlen
    have hhi := hi.toNat_lt
    have hlo := lo.toNat_lt
    obtain rfl : version = fecWireVersion := hversion
    obtain rfl : k = UInt8.ofNat tcpFecDefaultK := UInt8.toNat_inj.mp hk
    obtain rfl : r = UInt8.ofNat tcpFecDefaultR := UInt8.toNat_inj.mp hr
    have hval : hi.toNat * 256 + lo.toNat = 512 := by
      simpa [ntohs, tcpFecDefaultSymLen, Nat.mod_eq_of_lt, show hi.toNat * 256 + lo.toNat < 65536 by
        omega] using hsym
    obtain rfl : hi = 2 := UInt8.toNat_inj.mp (show hi.toNat = 2 by omega)
    obtain rfl : lo = 0 := UInt8.toNat_inj.mp (show lo.toNat = 0 by omega)
    exact ⟨reserved, rfl⟩
  · rintro ⟨reserved, rfl⟩
    exact ⟨rfl, rfl, rfl, rfl, by simp [ntohs, be16, tcpFecDefaultSymLen]⟩

@[simp] theorem Opt.note_fecPerm (out : TcpParsedOpts) (o : Opt) :
    (o.note out).fecPerm = true ↔ out.fecPerm = true ∨ o.IsFecPerm := by
  cases o with
  | noop => simp [Opt.note_noop, Opt.IsFecPerm, Opt.kind, tcpOptFecPerm]
  | tlv kind data known fits =>
    rw [Opt.note_tlv]
    unfold tcpWalkOption Opt.IsFecPerm
    simp only [Opt.kind, Opt.data]
    rw [← fecPerm_data_iff data]
    by_cases hperm : kind = tcpOptFecPerm
    · subst hperm
      simp only [show tcpOptFecPerm ≠ 2 by decide, show tcpOptFecPerm ≠ 4 by decide,
        show tcpOptFecPerm ≠ 8 by decide, if_false, if_true, true_and]
      split_ifs with h
      · exact iff_of_true rfl (.inr h)
      · exact (or_iff_left h).symm
    · simp only [hperm, if_false, false_and, or_false]
      split_ifs <;> rfl

/-- **What is noted** of a list, from any start. -/
theorem foldl_note (opts : List Opt) (out : TcpParsedOpts) :
    (opts.foldl Opt.note out).mss = (opts.filterMap Opt.mssValue).getLastD out.mss ∧
      ((opts.foldl Opt.note out).sackOk = true ↔ out.sackOk = true ∨ ∃ o ∈ opts, o.kind = 4) ∧
      ((opts.foldl Opt.note out).tsSeen = true ↔ out.tsSeen = true ∨ ∃ o ∈ opts, o.kind = 8) ∧
      ((opts.foldl Opt.note out).fecPerm = true ↔
        out.fecPerm = true ∨ ∃ o ∈ opts, o.IsFecPerm) := by
  induction opts generalizing out with
  | nil => simp
  | cons o opts ih =>
    obtain ⟨hmss, hsack, hts, hfec⟩ := ih (o.note out)
    rw [List.foldl_cons, hmss, hsack, hts, hfec]
    refine ⟨?_, by simp [or_assoc], by simp [or_assoc], by simp [or_assoc]⟩
    rw [Opt.note_mss, List.filterMap_cons]
    cases o.mssValue with
    | none => rfl
    | some v => rw [Option.getD_some, List.getLastD_cons]

theorem says_foldl_note (opts : List Opt) : Says opts (opts.foldl Opt.note .zero) := by
  obtain ⟨hmss, hsack, hts, hfec⟩ := foldl_note opts .zero
  exact ⟨hmss, by simpa [TcpParsedOpts.zero] using hsack, by simpa [TcpParsedOpts.zero] using hts,
    by simpa [TcpParsedOpts.zero] using hfec⟩

theorem filterMap_mssValue_filter (opts : List Opt) :
    (opts.filter fun o => o.kind = 2).filterMap Opt.mssValue = opts.filterMap Opt.mssValue := by
  rw [List.filterMap_filter]
  congr 1
  funext o
  by_cases hkind : o.kind = 2
  · simp [hkind]
  · simp [hkind, Opt.mssValue]

/-- What two lists say is the same if they have the same known options. -/
theorem Says.congr {opts opts' : List Opt} {out out' : TcpParsedOpts} (h : Says opts out)
    (h' : Says opts' out') (hsame : SameKnown opts opts') : out = out' := by
  have hkind : ∀ kind ∈ [2, 4, 8, tcpOptFecPerm],
      ∀ o : Opt, o.kind = kind → (o ∈ opts ↔ o ∈ opts') := by
    intro kind hkind o ho
    have hmem := congrArg (o ∈ ·) (hsame kind hkind)
    simpa [ho] using hmem
  have hmss : opts.filterMap Opt.mssValue = opts'.filterMap Opt.mssValue := by
    rw [← filterMap_mssValue_filter opts, hsame 2 (by simp), filterMap_mssValue_filter]
  have hflag : ∀ {a b : Bool}, (a = true ↔ b = true) → a = b := by decide
  have hsack : out.sackOk = out'.sackOk := by
    apply hflag
    rw [h.sackOk, h'.sackOk]
    exact exists_congr fun o => and_congr_left fun ho => hkind 4 (by simp) o ho
  have hts : out.tsSeen = out'.tsSeen := by
    apply hflag
    rw [h.tsSeen, h'.tsSeen]
    exact exists_congr fun o => and_congr_left fun ho => hkind 8 (by simp) o ho
  have hfec : out.fecPerm = out'.fecPerm := by
    apply hflag
    rw [h.fecPerm, h'.fecPerm]
    exact exists_congr fun o => and_congr_left fun ho => hkind tcpOptFecPerm (by simp) o ho.1
  have hval : out.mss = out'.mss := by rw [h.mss, h'.mss, hmss]
  cases out
  cases out'
  rw [TcpParsedOpts.mk.injEq]
  exact ⟨hsack, hts, hfec, hval⟩

/-- **The walk recognises its grammar.** What it finds is what the list of options says, and two
areas whose lists have the same known options give the same result, whatever follows the lists. -/
theorem tcpWalkOptions_says {tail tail' : List UInt8} (htail : OptsEnd tail) (htail' : OptsEnd tail')
    (opts opts' : List Opt) (beyond beyond' : List UInt8) :
    Says opts (tcpWalkOptions (serialise opts ++ tail ++ beyond)
        (serialise opts ++ tail).length .zero) ∧
      (SameKnown opts opts' →
        tcpWalkOptions (serialise opts ++ tail ++ beyond) (serialise opts ++ tail).length .zero =
          tcpWalkOptions (serialise opts' ++ tail' ++ beyond')
            (serialise opts' ++ tail').length .zero) := by
  rw [tcpWalkOptions_serialise htail, tcpWalkOptions_serialise htail']
  have h := says_foldl_note opts
  exact ⟨h, fun hsame => h.congr (says_foldl_note opts') hsame⟩

/-- An MSS of 1000 and SACK, in either order, with and without padding. -/
theorem tcpWalkOptions_says_mss_sack :
    Says [.tlv 2 [3, 232] (by decide) (by decide), .noop, .tlv 4 [] (by decide) (by decide)]
        (tcpWalkOptions ([2, 4, 3, 232, 1, 4, 2] ++ [0, 30, 2] ++ [7])
          ([2, 4, 3, 232, 1, 4, 2] ++ [0, 30, 2]).length .zero) ∧
      tcpWalkOptions ([2, 4, 3, 232, 1, 4, 2] ++ [0, 30, 2] ++ [7])
          ([2, 4, 3, 232, 1, 4, 2] ++ [0, 30, 2]).length .zero =
        tcpWalkOptions ([4, 2, 2, 4, 3, 232] ++ [9] ++ []) ([4, 2, 2, 4, 3, 232] ++ [9]).length
          .zero := by
  have h := tcpWalkOptions_says (.stop [30, 2]) (@OptsEnd.noLength 9 (by decide))
    [.tlv 2 [3, 232] (by decide) (by decide), .noop, .tlv 4 [] (by decide) (by decide)]
    [.tlv 4 [] (by decide) (by decide), .tlv 2 [3, 232] (by decide) (by decide)] [7] []
  refine ⟨h.1, h.2 ?_⟩
  intro kind hkind
  simp only [List.mem_cons, List.not_mem_nil, or_false] at hkind
  rcases hkind with rfl | rfl | rfl | rfl <;> rfl

/-! ## What the walk reads -/

/-- A finished walk: what it found, and the offsets it read, in order. -/
structure Walk where
  out : TcpParsedOpts
  reads : List ℕ

/-- A walk that has read some offsets before. -/
def Walk.after (reads : List ℕ) (w : Walk) : Walk := { w with reads := reads ++ w.reads }

/-- What the body of the `switch` reads, of the option of `len` bytes at `ptr`. The two bytes of
`sym_len` are fetched before the length is compared, the fields of `fp` after it. -/
def tcpWalkOptionReads (ptr : List UInt8) (kind : UInt8) (len off : ℕ) : List ℕ :=
  if kind = 2 then if len = 4 then [off + 2, off + 3] else []
  else if kind = tcpOptFecPerm then
    [off + 6, off + 7] ++
      if len = tcpOptlenFecPerm then
        (off + 2) :: if ptr.getD 2 0 = fecWireVersion then
          (off + 3) :: if (ptr.getD 3 0).toNat = tcpFecDefaultK then [off + 4] else []
        else []
      else []
  else []

/-- The loop of `tcp_walk_options`, at offset `off` of the area, with what it reads; `none` if it
takes more than `n` iterations. -/
def tcpWalkTrace : ℕ → List UInt8 → ℕ → ℕ → TcpParsedOpts → Option Walk
  | 0, _, _, _, _ => none
  | n + 1, ptr, off, optlen, out =>
    let kind := ptr.getD 0 0
    let len := (ptr.getD 1 0).toNat
    if optlen = 0 then some ⟨out, []⟩
    else if kind = 0 then some ⟨out, [off]⟩
    else if kind = 1 then (tcpWalkTrace n (ptr.drop 1) (off + 1) (optlen - 1) out).map (.after [off])
    else if optlen < 2 then some ⟨out, [off]⟩
    else if len < 2 ∨ optlen < len then some ⟨out, [off, off + 1]⟩
    else (tcpWalkTrace n (ptr.drop len) (off + len) (optlen - len)
      (tcpWalkOption ptr kind len out)).map
        (.after (off :: (off + 1) :: tcpWalkOptionReads ptr kind len off))

/-- The walk over an area ends with the result of `tcp_walk_options`, and it reads bytes of the area
only. -/
def StaysInside (area beyond : List UInt8) (out : TcpParsedOpts) : Prop :=
  ∃ n w, tcpWalkTrace n (area ++ beyond) 0 area.length out = some w ∧
    w.out = tcpWalkOptions (area ++ beyond) area.length out ∧ ∀ i ∈ w.reads, i < area.length

/-- A FEC-permitted option behind well-formed options has eight bytes of the area. -/
def FecPermFits (area : List UInt8) : Prop :=
  ∀ opts len rest, area = serialise opts ++ tcpOptFecPerm :: len :: rest →
    2 ≤ len.toNat → len.toNat ≤ rest.length + 2 → 6 ≤ rest.length

/-- What is read of an option at offset `off`, before `rest`. -/
def Opt.reads (off : ℕ) (rest : List UInt8) : Opt → List ℕ
  | noop => [off]
  | tlv kind data known fits =>
    off :: (off + 1) :: tcpWalkOptionReads ((tlv kind data known fits).bytes ++ rest) kind
      (data.length + 2) off

theorem tcpWalkTrace_cons (n m off : ℕ) (o : Opt) (rest : List UInt8) (out : TcpParsedOpts) :
    tcpWalkTrace (n + 1) (o.bytes ++ rest) off (o.bytes.length + m) out =
      (tcpWalkTrace n rest (off + o.bytes.length) m (o.note out)).map
        (.after (o.reads off rest)) := by
  cases o with
  | noop =>
    simp [tcpWalkTrace, Opt.bytes, Opt.note_noop, Opt.reads]
  | tlv kind data known fits =>
    have hlen : (UInt8.ofNat (data.length + 2)).toNat = data.length + 2 := by
      rw [UInt8.toNat_ofNat', Nat.mod_eq_of_lt (by omega)]
    obtain ⟨h0, h1⟩ := ne_of_two_le_toNat known
    have happ := tcpWalkOption_append (Opt.tlv kind data known fits).bytes rest kind out
    simp only [Opt.reads, Opt.bytes, List.length_cons, List.cons_append] at happ ⊢
    rw [tcpWalkTrace]
    simp only [List.getD_cons_zero, List.getD_cons_succ, hlen]
    rw [if_neg (by omega), if_neg h0, if_neg h1, if_neg (by omega), if_neg (by omega), happ]
    simp only [Opt.note, Opt.bytes, Opt.kind, List.length_cons, List.drop_succ_cons,
      List.drop_left, Nat.add_sub_cancel_left]

theorem tcpWalkTrace_ends {tail : List UInt8} (htail : OptsEnd tail) (n off : ℕ)
    (beyond : List UInt8) (out : TcpParsedOpts) :
    ∃ reads, tcpWalkTrace (n + 1) (tail ++ beyond) off tail.length out = some ⟨out, reads⟩ ∧
      ∀ i ∈ reads, i < off + tail.length := by
  cases htail with
  | nothing => exact ⟨[], by simp [tcpWalkTrace], by simp⟩
  | stop rest => exact ⟨[off], by simp [tcpWalkTrace], by simp⟩
  | @noLength kind hkind =>
    obtain ⟨h0, h1⟩ := ne_of_two_le_toNat hkind
    exact ⟨[off], by simp [tcpWalkTrace, h1], by simp⟩
  | @badLength kind len rest hkind hlen =>
    obtain ⟨h0, h1⟩ := ne_of_two_le_toNat hkind
    refine ⟨[off, off + 1], ?_, by simp⟩
    simp [tcpWalkTrace, h0, h1]
    omega

theorem FecPermFits.of_cons {o : Opt} {area : List UInt8} (h : FecPermFits (o.bytes ++ area)) :
    FecPermFits area := by
  intro opts len rest harea
  exact h (o :: opts) len rest (by simp [harea])

theorem lt_of_mem_tcpWalkOptionReads {ptr : List UInt8} {kind : UInt8} {len off i : ℕ}
    (hi : i ∈ tcpWalkOptionReads ptr kind len off) :
    i < off + len ∨ (kind = tcpOptFecPerm ∧ i < off + 8) := by
  unfold tcpWalkOptionReads at hi
  by_cases h2 : kind = 2
  · rw [if_pos h2] at hi
    split_ifs at hi <;> simp at hi
    omega
  · rw [if_neg h2] at hi
    by_cases hperm : kind = tcpOptFecPerm
    · rw [if_pos hperm] at hi
      refine .inr ⟨hperm, ?_⟩
      split_ifs at hi <;> simp at hi <;> omega
    · rw [if_neg hperm] at hi
      cases hi

/-- An option is read within the area, its FEC-permitted fields too if they fit. -/
theorem Opt.lt_of_mem_reads {o : Opt} {area beyond : List UInt8} (h : FecPermFits (o.bytes ++ area))
    {off i : ℕ} (hi : i ∈ o.reads off (area ++ beyond)) :
    i < off + (o.bytes.length + area.length) := by
  cases o with
  | noop =>
    simp only [Opt.reads, List.mem_singleton] at hi
    simp only [Opt.bytes, List.length_singleton]
    omega
  | tlv kind data known fits =>
    have hroom : kind = tcpOptFecPerm → 6 ≤ data.length + area.length := by
      rintro rfl
      have h6 := h [] (UInt8.ofNat (data.length + 2)) (data ++ area) (by simp [Opt.bytes])
      rw [UInt8.toNat_ofNat', Nat.mod_eq_of_lt (by omega), List.length_append] at h6
      exact h6 (by omega) (by omega)
    simp only [Opt.reads, List.mem_cons] at hi
    simp only [Opt.bytes, List.length_cons]
    rcases hi with rfl | rfl | hi
    · omega
    · omega
    · rcases lt_of_mem_tcpWalkOptionReads hi with hlt | ⟨hperm, hlt⟩
      · omega
      · have := hroom hperm
        omega

/-- **The walk ends**, and it stays inside if the FEC-permitted options fit. -/
theorem tcpWalkTrace_serialise {tail : List UInt8} (htail : OptsEnd tail) (beyond : List UInt8)
    (opts : List Opt) (off : ℕ) (out : TcpParsedOpts) :
    ∃ reads, tcpWalkTrace (opts.length + 1) (serialise opts ++ (tail ++ beyond)) off
        ((serialise opts).length + tail.length) out = some ⟨opts.foldl Opt.note out, reads⟩ ∧
      (FecPermFits (serialise opts ++ tail) →
        ∀ i ∈ reads, i < off + ((serialise opts).length + tail.length)) := by
  induction opts generalizing off out with
  | nil =>
    simp only [serialise_nil, List.nil_append, List.length_nil, zero_add]
    obtain ⟨reads, hreads, hlt⟩ := tcpWalkTrace_ends htail 0 off beyond out
    exact ⟨reads, hreads, fun _ => hlt⟩
  | cons o opts ih =>
    obtain ⟨reads, hreads, hlt⟩ := ih (off + o.bytes.length) (o.note out)
    refine ⟨o.reads off (serialise opts ++ (tail ++ beyond)) ++ reads, ?_, ?_⟩
    · rw [serialise_cons, List.append_assoc, List.length_append, add_assoc, List.length_cons,
        tcpWalkTrace_cons, hreads]
      rfl
    · intro hfits i hi
      rw [serialise_cons, List.append_assoc] at hfits
      rw [serialise_cons, List.length_append]
      rcases List.mem_append.mp hi with hi | hi
      · rw [← List.append_assoc] at hi
        have := Opt.lt_of_mem_reads hfits hi
        rw [List.length_append] at this
        omega
      · have := hlt hfits.of_cons i hi
        omega

/-- A FEC-permitted option is looked at up to its eighth byte. -/
theorem mem_reads_of_fecPerm {o : Opt} (ho : o.kind = tcpOptFecPerm) (opts : List Opt)
    {rest : List UInt8} {n m off : ℕ} {out : TcpParsedOpts} {w : Walk}
    (hw : tcpWalkTrace n (serialise opts ++ (o.bytes ++ rest)) off
      ((serialise opts).length + (o.bytes.length + m)) out = some w) :
    off + (serialise opts).length + 7 ∈ w.reads := by
  induction opts generalizing n off out w with
  | nil =>
    cases n with
    | zero => simp [tcpWalkTrace] at hw
    | succ n =>
      rw [serialise_nil, List.nil_append, List.length_nil, zero_add, tcpWalkTrace_cons] at hw
      obtain ⟨v, -, rfl⟩ := Option.map_eq_some_iff.mp hw
      apply List.mem_append_left
      cases o with
      | noop => simp [Opt.kind, tcpOptFecPerm] at ho
      | tlv kind data known fits =>
        obtain rfl : kind = tcpOptFecPerm := ho
        simp [Opt.reads, tcpWalkOptionReads, show tcpOptFecPerm ≠ 2 by decide]
  | cons o' opts ih =>
    cases n with
    | zero => simp [tcpWalkTrace] at hw
    | succ n =>
      rw [serialise_cons, List.append_assoc, List.length_append, add_assoc,
        tcpWalkTrace_cons] at hw
      obtain ⟨v, hv, rfl⟩ := Option.map_eq_some_iff.mp hw
      apply List.mem_append_right
      have := ih hv
      rwa [serialise_cons, List.length_append, ← add_assoc]

/-- **The walk stays inside its area** exactly when the FEC-permitted options it reaches have eight
bytes there. -/
theorem staysInside_iff (area beyond : List UInt8) (out : TcpParsedOpts) :
    StaysInside area beyond out ↔ FecPermFits area := by
  constructor
  · rintro ⟨n, w, hw, -, hreads⟩ opts len rest rfl h2 hle
    obtain ⟨data, rest, rfl, hdata⟩ : ∃ data rest', rest = data ++ rest' ∧
        data.length + 2 = len.toNat :=
      ⟨rest.take (len.toNat - 2), rest.drop (len.toNat - 2), (List.take_append_drop _ _).symm,
        by rw [List.length_take]; omega⟩
    have hlt := len.toNat_lt
    obtain ⟨o, hkind, hbytes⟩ : ∃ o : Opt, o.kind = tcpOptFecPerm ∧
        o.bytes = tcpOptFecPerm :: len :: data :=
      ⟨.tlv tcpOptFecPerm data (by decide) (by omega), rfl,
        by rw [Opt.bytes, hdata, UInt8.ofNat_toNat]⟩
    have harea : serialise opts ++ tcpOptFecPerm :: len :: (data ++ rest) ++ beyond =
        serialise opts ++ (o.bytes ++ (rest ++ beyond)) := by
      simp [hbytes]
    have hlen : (serialise opts ++ tcpOptFecPerm :: len :: (data ++ rest)).length =
        (serialise opts).length + (o.bytes.length + rest.length) := by
      simp [hbytes]
      omega
    rw [harea, hlen] at hw
    have h7 := hreads _ (mem_reads_of_fecPerm hkind opts hw)
    rw [hlen, hbytes, List.length_cons, List.length_cons] at h7
    rw [List.length_append]
    omega
  · intro hfits
    obtain ⟨opts, tail, rfl, htail⟩ := exists_serialise_append area
    obtain ⟨reads, hw, hlt⟩ := tcpWalkTrace_serialise htail beyond opts 0 out
    rw [← List.append_assoc, ← List.length_append] at hw
    refine ⟨_, _, hw, (tcpWalkOptions_serialise htail opts beyond out).symm, ?_⟩
    intro i hi
    have := hlt hfits i hi
    rw [List.length_append]
    omega

/-- A FEC-permitted option of two bytes at the end of the area: the walk reads the sixth and the
seventh byte behind the kind. -/
theorem not_staysInside_short : ¬ StaysInside [tcpOptFecPerm, 2] [] .zero := by
  rintro ⟨n, w, hw, -, hreads⟩
  rcases n with _ | _ | n
  · cases hw
  · cases hw
  · obtain rfl : (⟨.zero, [0, 1, 6, 7]⟩ : Walk) = w := by
      simpa [tcpWalkTrace, tcpWalkOptionReads, tcpWalkOption, tcpOptFecPerm, tcpOptlenFecPerm,
        Walk.after] using hw
    exact absurd (hreads 7 (by simp)) (by simp)

end LvlIp.Tcp
