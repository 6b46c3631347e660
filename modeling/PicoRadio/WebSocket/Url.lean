import PicoRadio.Json.Unpacker
import PicoRadio.WebSocket.Handshake

/-!
# The URL of a server

The constructor of a client cuts the URL at the slashes and the colon and hands the parts on: the
host to `ip4addr_aton`, the port to the TCP client, the path to the handshake. Positions are those
of `find`; `none` is `npos`, which is larger than every position of a text.

The path starts where a slash is found behind the host. Where there is none, `substr` is called
with `npos` and throws.
-/

namespace WebSockets

open Json (IsDigit IsDigits digitsValue)

/-- `'/'` -/
def SLASH : UInt8 := 47

/-- How an operation on strings can go wrong. -/
inductive StringFault
  /-- `std::out_of_range` -/
  | outOfRange
  deriving DecidableEq, Repr

/-- `s.substr(pos, n)`, up to the end where `n` is `npos` or too large. -/
def substr (s : Str) (pos n : Option ℕ) : Except StringFault Str :=
  match pos with
  | none => .error .outOfRange
  | some pos =>
    if pos > s.length then .error .outOfRange
    else .ok (n.elim (s.drop pos) fun n ↦ (s.drop pos).take n)

/-- `c_str()` as a C function reads it. -/
def c_str (s : Str) : Str :=
  s.takeWhile (· ≠ 0)

/-- What the constructor takes from a URL. -/
structure UrlParts where
  /-- What `ip4addr_aton` reads. -/
  server : Str
  /-- The port of the TCP client. -/
  port : Int32
  /-- The path and the host of the handshake. -/
  path : Str
  host : Str
  deriving DecidableEq, Repr

/-- `std::from_chars` into a port that is not initialised. -/
def portOf (uninit : Int32) (portStr : Str) : Int32 :=
  match Json.Unpacker.fromChars portStr with
  | .value port => port
  | _ => uninit

/-- The host without the port, and the port. -/
def splitHost (uninit : Int32) (host : Str) : Except StringFault (Str × Int32) :=
  match find COLON host 0 with
  | some hostSep => do
    let serverStr ← substr host (some 0) (some hostSep)
    let portStr ← substr host (some (hostSep + 1)) none
    return (serverStr, portOf uninit portStr)
  | none => .ok (host, 80)

/-- What `WebSocket(url, protocols)` does with the URL. A sum with `npos` wraps around. -/
def parseUrl (uninit : Int32) (url : Str) : Except StringFault UrlParts := do
  let host_start := (find SLASH url 0).elim 1 (· + 2)
  let host_end := find SLASH url host_start
  let host ← substr url (some host_start) (host_end.map (· - host_start))
  let path ← substr url host_end none
  let r ← splitHost uninit host
  return { server := c_str r.1, port := r.2, path, host }

/-- A URL of the form `ws://host[:port][path]`. -/
structure WsUrl where
  host : Str
  port : Option Str
  path : Str
  host_slash : SLASH ∉ host
  host_colon : COLON ∉ host
  port_digits : ∀ digits, port = some digits → IsDigits digits
  port_lt : ∀ digits, port = some digits → digitsValue digits < 65536
  path_rooted : path = [] ∨ path.head? = some SLASH

namespace WsUrl

/-- The host with the port. -/
def authority (u : WsUrl) : Str :=
  u.host ++ u.port.elim [] (COLON :: ·)

def text (u : WsUrl) : Str :=
  ascii "ws://" ++ u.authority ++ u.path

/-- The constructor takes the host, the port and the path as they are, or 80 and `/` for those that
are not there. -/
def Honoured (u : WsUrl) (uninit : Int32) : Prop :=
  Ends (parseUrl uninit u.text)
    (fun parts ↦ parts.server = u.host ∧
      parts.port.toInt = u.port.elim (80 : ℤ) (fun digits ↦ digitsValue digits) ∧
      parts.path = if u.path = [] then [SLASH] else u.path)
    fun _ ↦ False

end WsUrl

/-! ### Positions -/

theorem findIdx?_none {c : UInt8} {s : Str} (h : c ∉ s) : s.findIdx? (· == c) = none := by
  rw [List.findIdx?_eq_none_iff]
  intro b hb
  rw [beq_eq_false_iff_ne]
  rintro rfl
  exact h hb

theorem find_none {c : UInt8} {s : Str} (h : c ∉ s) : find c s 0 = none := by
  rw [find, List.drop_zero, findIdx?_none h, Option.map_none]

/-- A search over a prefix without the character. -/
theorem find_append_of_not_mem {c : UInt8} {front : Str} (h : c ∉ front) (s : Str) :
    find c (front ++ s) 0 = (find c s 0).map (front.length + ·) := by
  rw [find, find, List.drop_zero, List.drop_zero, List.findIdx?_append, findIdx?_none h,
    Option.none_or, Option.map_map, Option.map_map]
  refine congrArg (Option.map · _) (funext fun i ↦ ?_)
  show 0 + (i + front.length) = front.length + (0 + i)
  omega

/-- A search behind a prefix. -/
theorem find_behind (c : UInt8) (front s : Str) :
    find c (front ++ s) front.length = (find c s 0).map (front.length + ·) := by
  rw [find, find, List.drop_left, List.drop_zero, Option.map_map]
  exact congrArg (Option.map · _) (funext fun i ↦ congrArg _ (Nat.zero_add i).symm)

theorem substr_behind (front s : Str) (n : Option ℕ) :
    substr (front ++ s) (some front.length) n = .ok (n.elim s fun n ↦ s.take n) := by
  rw [substr, if_neg (by rw [List.length_append]; omega), List.drop_left]

theorem c_str_eq {s : Str} : c_str s = s ↔ 0 ∉ s := by
  rw [c_str, List.takeWhile_eq_self_iff]
  constructor
  · intro h hzero
    exact absurd (h 0 hzero) (by decide)
  · intro h c hc
    refine decide_eq_true ?_
    rintro rfl
    exact h hc

/-- Digits are read as the number that they stand for. -/
theorem portOf_digits (uninit : Int32) {digits : Str} (h : IsDigits digits)
    (hlt : digitsValue digits < 65536) : (portOf uninit digits).toInt = digitsValue digits := by
  have hhead : digits.head? ≠ some 0x2d := by
    obtain ⟨c, s, rfl⟩ := List.exists_cons_of_ne_nil h.1
    intro heq
    have hdigit := h.2 c List.mem_cons_self
    rw [Option.some.inj heq] at hdigit
    exact absurd hdigit (by decide)
  have hdigits : digits.takeWhile (fun c ↦ IsDigit c) = digits :=
    List.takeWhile_eq_self_iff.mpr fun c hc ↦ decide_eq_true (h.2 c hc)
  have hchars : Json.Unpacker.fromChars digits = .value (Int32.ofInt (digitsValue digits)) := by
    simp only [Json.Unpacker.fromChars, hhead, decide_false, Bool.false_eq_true, if_false, hdigits,
      h.1]
    rw [if_pos (by omega)]
  rw [portOf, hchars]
  exact Int32.toInt_ofInt_of_le (by omega) (by omega)

namespace WsUrl

variable (u : WsUrl)

theorem slash_not_mem_authority : SLASH ∉ u.authority := by
  rw [authority, List.mem_append, not_or]
  refine ⟨u.host_slash, ?_⟩
  cases hport : u.port with
  | none => exact List.not_mem_nil
  | some digits =>
    rw [Option.elim_some, List.mem_cons, not_or]
    exact ⟨by decide, fun h ↦ absurd ((u.port_digits digits hport).2 _ h) (by decide)⟩

theorem splitHost_authority (uninit : Int32) :
    ∃ port, splitHost uninit u.authority = .ok (u.host, port) ∧
      port.toInt = u.port.elim (80 : ℤ) (fun digits ↦ digitsValue digits) := by
  rw [authority]
  cases hport : u.port with
  | none =>
    rw [Option.elim_none, List.append_nil, splitHost, find_none u.host_colon]
    exact ⟨80, rfl, rfl⟩
  | some digits =>
    have hhost := substr_behind [] (u.host ++ COLON :: digits) (some u.host.length)
    have hdigits : substr (u.host ++ COLON :: digits) (some (u.host.length + 1)) none =
        .ok digits := by
      have hbehind := substr_behind (u.host ++ [COLON]) digits none
      rwa [List.append_assoc, List.singleton_append, List.length_append, List.length_singleton]
        at hbehind
    rw [List.nil_append, Option.elim_some, List.take_left] at hhost
    rw [Option.elim_some, splitHost, find_append u.host_colon]
    refine ⟨portOf uninit digits, ?_,
      portOf_digits uninit (u.port_digits digits hport) (u.port_lt digits hport)⟩
    show (substr _ (some ([] : Str).length) _ >>= _) = _
    rw [hhost, ok_bind]
    rw [hdigits]
    rfl

/-- The host starts behind the two slashes. -/
theorem parseUrl_text (uninit : Int32) :
    parseUrl uninit u.text = (do
      let host ← substr (ascii "ws://" ++ (u.authority ++ u.path)) (some 5)
        (((find SLASH u.path 0).map (u.authority.length + ·)).map (5 + ·) |>.map (· - 5))
      let path ← substr (ascii "ws://" ++ (u.authority ++ u.path))
        (((find SLASH u.path 0).map (u.authority.length + ·)).map (5 + ·)) none
      let r ← splitHost uninit host
      return { server := c_str r.1, port := r.2, path, host }) := by
  have htext : u.text = ascii "ws://" ++ (u.authority ++ u.path) := List.append_assoc _ _ _
  have hslashes : find SLASH (ascii "ws://" ++ (u.authority ++ u.path)) 0 = some 3 :=
    find_append (l := ascii "ws:") (by decide) (SLASH :: (u.authority ++ u.path))
  have hend : find SLASH (ascii "ws://" ++ (u.authority ++ u.path)) 5 =
      ((find SLASH u.path 0).map (u.authority.length + ·)).map (5 + ·) := by
    rw [← find_append_of_not_mem u.slash_not_mem_authority]
    exact find_behind SLASH (ascii "ws://") (u.authority ++ u.path)
  rw [parseUrl, htext, hslashes]
  show (substr _ (some 5) ((find SLASH _ 5).map (· - 5)) >>= fun host ↦
    substr _ (find SLASH _ 5) none >>= _) = _
  rw [hend]

/-- Without a path the constructor throws. -/
theorem parseUrl_of_nil (uninit : Int32) (h : u.path = []) :
    parseUrl uninit u.text = .error .outOfRange := by
  rw [parseUrl_text, h]
  have hhost := substr_behind (ascii "ws://") (u.authority ++ []) none
  show (substr _ (some (ascii "ws://").length) none >>= _) = _
  rw [hhost]
  rfl

theorem parseUrl_of_ne_nil (uninit : Int32) (h : u.path ≠ []) :
    ∃ port, parseUrl uninit u.text = .ok ⟨c_str u.host, port, u.path, u.authority⟩ ∧
      port.toInt = u.port.elim (80 : ℤ) (fun digits ↦ digitsValue digits) := by
  obtain ⟨port, hsplit, hport⟩ := u.splitHost_authority uninit
  refine ⟨port, ?_, hport⟩
  have hrooted : find SLASH u.path 0 = some 0 := by
    obtain ⟨c, s, hpath⟩ := List.exists_cons_of_ne_nil h
    have hhead := u.path_rooted.resolve_left h
    rw [hpath] at hhead ⊢
    obtain rfl := Option.some.inj hhead
    exact find_append (l := []) List.not_mem_nil s
  have hhost := substr_behind (ascii "ws://") (u.authority ++ u.path) (some u.authority.length)
  have hpath := substr_behind (ascii "ws://" ++ u.authority) u.path none
  rw [Option.elim_some, List.take_left] at hhost
  rw [List.append_assoc, List.length_append] at hpath
  rw [parseUrl_text, hrooted]
  show (substr _ (some (ascii "ws://").length) (some (5 + (u.authority.length + 0) - 5)) >>= _) = _
  rw [Nat.add_zero, Nat.add_sub_cancel_left, hhost, ok_bind]
  show (substr _ (some ((ascii "ws://").length + u.authority.length)) none >>= _) = _
  rw [hpath, ok_bind, hsplit]
  rfl

/-- **The parts of a URL are taken as they are** exactly if there is a path, and the host can be
written as a C string. -/
theorem partsTaken_iff (uninit : Int32) :
    u.Honoured uninit ↔ u.path ≠ [] ∧ 0 ∉ u.host := by
  constructor
  · intro h
    have hne : u.path ≠ [] := by
      intro hnil
      rw [Honoured, u.parseUrl_of_nil uninit hnil] at h
      exact h
    obtain ⟨port, hparse, -⟩ := u.parseUrl_of_ne_nil uninit hne
    rw [Honoured, hparse] at h
    exact ⟨hne, c_str_eq.mp h.1⟩
  · rintro ⟨hne, hhost⟩
    obtain ⟨port, hparse, hport⟩ := u.parseUrl_of_ne_nil uninit hne
    rw [Honoured, hparse]
    exact ⟨c_str_eq.mpr hhost, hport, (if_neg hne).symm⟩

/-- `ws://10.0.0.2` -/
def bare : WsUrl where
  host := ascii "10.0.0.2"
  port := none
  path := []
  host_slash := by decide
  host_colon := by decide
  port_digits := fun _ h ↦ absurd h (Option.some_ne_none _).symm
  port_lt := fun _ h ↦ absurd h (Option.some_ne_none _).symm
  path_rooted := .inl rfl

/-- A URL without a path makes the constructor throw. -/
theorem bare_throws : ¬∀ (u : WsUrl) (uninit : Int32), u.Honoured uninit := by
  intro h
  have hparse : parseUrl 0 bare.text = .error .outOfRange := by decide
  have hhonoured := h bare 0
  rw [Honoured, hparse] at hhonoured
  exact hhonoured

end WsUrl

end WebSockets
