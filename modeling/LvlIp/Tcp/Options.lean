import LvlIp.Tcp.Sock

/-!
# TCP options

The option walker of `src/tcp_optparse.c`, `tcp_parse_opts` of `src/tcp_input.c`, and the option
writers of `src/tcp_output.c`.
-/

namespace LvlIp.Tcp

open Fec

/-! ## Reading -/

/-- `struct tcp_parsed_opts`. -/
structure TcpParsedOpts where
  sackOk : Bool
  tsSeen : Bool
  fecPerm : Bool
  mss : UInt16
deriving DecidableEq, Repr

/-- A zeroed `struct tcp_parsed_opts`. -/
def TcpParsedOpts.zero : TcpParsedOpts where
  sackOk := false
  tsSeen := false
  fecPerm := false
  mss := 0

/-- The body of the `switch` of `tcp_walk_options`, on the option of `len` bytes at `ptr`. -/
def tcpWalkOption (ptr : List UInt8) (kind : UInt8) (len : ℕ) (out : TcpParsedOpts) :
    TcpParsedOpts :=
  if kind = 2 then
    if len = 4 ∧ 536 < ntohs ptr 2 ∧ ntohs ptr 2 ≤ 1460 then { out with mss := ntohs ptr 2 }
    else out
  else if kind = 4 then { out with sackOk := true }
  else if kind = 8 then { out with tsSeen := true }
  else if kind = tcpOptFecPerm then
    if len = tcpOptlenFecPerm ∧ ptr.getD 2 0 = fecWireVersion ∧
        (ptr.getD 3 0).toNat = tcpFecDefaultK ∧ (ptr.getD 4 0).toNat = tcpFecDefaultR ∧
        (ntohs ptr 6).toNat = tcpFecDefaultSymLen then { out with fecPerm := true }
    else out
  else out

/-- The loop of `tcp_walk_options`. Every iteration takes at least one byte off the area, so
`optlen` iterations are enough. -/
def tcpWalkLoop : ℕ → List UInt8 → ℕ → TcpParsedOpts → TcpParsedOpts
  | 0, _, _, out => out
  | n + 1, ptr, optlen, out =>
    let kind := ptr.getD 0 0
    let len := (ptr.getD 1 0).toNat
    if optlen = 0 then out
    else if kind = 0 then out
    else if kind = 1 then tcpWalkLoop n (ptr.drop 1) (optlen - 1) out
    else if optlen < 2 then out
    else if len < 2 ∨ optlen < len then out
    else tcpWalkLoop n (ptr.drop len) (optlen - len) (tcpWalkOption ptr kind len out)

/-- `tcp_walk_options`. -/
def tcpWalkOptions (ptr : List UInt8) (optlen : ℕ) (out : TcpParsedOpts) : TcpParsedOpts :=
  tcpWalkLoop optlen ptr optlen out

/-- The length that `tcp_parse_opts` passes on, an 8-bit difference. -/
def tcpOptAreaLen (th : Tcphdr) : ℕ := (tcpHlen th + 256 - tcpHdrLen) % 256

/-- `tcp_parse_opts`. -/
def tcpParseOpts (s : TcpSock) (th : Tcphdr) : TcpSock :=
  let opts := tcpWalkOptions th.data (tcpOptAreaLen th) .zero
  let s := if opts.mss ≠ 0 then { s with smss := opts.mss } else s
  let s := if ¬ opts.tsSeen then { s with tsopt := 0 } else s
  let s := if opts.sackOk ∧ s.sackok ≠ 0 then
      { s with sacksAllowed := if s.tsopt ≠ 0 then 3 else 4 }
    else { s with sackok := 0 }
  if opts.fecPerm ∧ s.fecok ≠ 0 then { s with fecok := 1 } else { s with fecok := 0 }

/-! ## Writing -/

/-- `struct tcp_options`. -/
structure TcpOptions where
  mss : UInt16
  sack : Bool
  fec : Bool
deriving DecidableEq, Repr

/-- `TCP_OPT_MAX`. -/
def tcpOptMax : ℕ := 40

/-- `tcp_syn_options`: the options of a SYN and the length of its option area. -/
def tcpSynOptions (s : TcpSock) : TcpOptions × ℕ :=
  let sack := s.sackok ≠ 0
  let fec := s.fecok ≠ 0
  let optlen := 4 + (if sack then 1 * 2 + 2 else 0) + (if fec then tcpOptlenFecPerm else 0)
  let tooLong := tcpOptMax < optlen ∧ fec
  let optlen := if tooLong then optlen - tcpOptlenFecPerm else optlen
  ({ mss := s.rmss, sack := sack, fec := fec ∧ ¬ tooLong }, (optlen + 3) / 4 * 4)

/-- `struct tcp_opt_fec_perm` with the default geometry. -/
def tcpOptFecPermBytes : List UInt8 :=
  [tcpOptFecPerm, UInt8.ofNat tcpOptlenFecPerm, fecWireVersion, UInt8.ofNat tcpFecDefaultK,
    UInt8.ofNat tcpFecDefaultR, 0] ++ be16 (UInt16.ofNat tcpFecDefaultSymLen)

/-- The options that `tcp_write_syn_options` writes before its padding. -/
def tcpSynOptionBytes (opts : TcpOptions) : List UInt8 :=
  [2, 4] ++ be16 opts.mss ++ (if opts.fec then tcpOptFecPermBytes else []) ++
    (if opts.sack then [1, 1, 4, 2] else [])

/-- `tcp_write_syn_options`. -/
def tcpWriteSynOptions (th : Tcphdr) (opts : TcpOptions) (optlen : ℕ) : Tcphdr :=
  let bytes := tcpSynOptionBytes opts
  { th with
    data := bytes ++ List.replicate (optlen - bytes.length) 1
    hl := tcpDoffset + optlen / 4 }

/-- The SACK blocks in the order `tcp_write_options` writes them. -/
def tcpSackBytes (s : TcpSock) : List UInt8 :=
  (List.range s.sacklen).reverse.flatMap fun i =>
    let sb := s.sacks.getD i ⟨0, 0⟩
    be32 sb.left ++ be32 sb.right

/-- `tcp_write_options`: a coded segment keeps the option it was built with; the SACK blocks go
out once. All of them are stored, whatever room was reserved. -/
def tcpWriteOptions (s : TcpSock) (th : Tcphdr) : TcpSock × Tcphdr :=
  if th.data.getD 0 0 = tcpOptFec then (s, th)
  else if s.sackok = 0 ∨ (s.sacks.getD 0 ⟨0, 0⟩).left = 0 then (s, th)
  else
    let bytes := [1, 1, 5, UInt8.ofNat (2 + s.sacklen * 8)] ++ tcpSackBytes s
    ({ s with
        sacks := s.sacks.mapIdx fun i sb => if i < s.sacklen then ⟨0, 0⟩ else sb
        sacksPast := List.replicate (s.sacklen - 4) (some ⟨0, 0⟩) ++ s.sacksPast.drop (s.sacklen - 4)
        sacklen := 0
        spilled := s.spilled ++ bytes.drop th.data.length },
      { th with data := bytes.take th.data.length ++ th.data.drop bytes.length })

/-- `tcp_options_len`. -/
def tcpOptionsLen (s : TcpSock) : ℕ :=
  if s.sackok ≠ 0 ∧ 0 < s.sacklen then
    let n := ((List.range s.sacklen).filter fun i => (s.sacks.getD i ⟨0, 0⟩).left ≠ 0).length
    (n * 8 + 2 + 3) / 4 * 4
  else 0

end LvlIp.Tcp
