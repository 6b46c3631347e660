import PicoRadio.Bytes

/-!
# Reading from a TCP connection

`TcpClient::readBytes` returns what has arrived, at most as many bytes as asked for: a stream comes
in pieces, and the network decides where it is cut. `Network` is what the peer has sent and nobody
has read, with how the next calls of `recv` end. When nothing more is said about them, calls return
all they ask for, and at the end of the stream the connection is gone.
-/

namespace WebSockets

/-- How a call of `recv` ends. -/
inductive Arrival
  /-- So many bytes have arrived, or one. -/
  | bytes (n : ℕ)
  /-- Nothing arrives in time. -/
  | timeout
  /-- The socket fails. -/
  | error
  deriving DecidableEq, Repr

/-- What the peer has sent, and how it arrives. -/
structure Network where
  incoming : Bytes
  arrivals : List Arrival := []
  deriving DecidableEq, Repr

/-- What `readBytes` does to the buffer and returns. -/
inductive ReadResult
  /-- The bytes written to the buffer. Their number is returned. -/
  | bytes (mem : Bytes)
  /-- `0`. -/
  | timeout
  /-- `-1`, and the socket is closed. -/
  | closed
  /-- `-1`, since nothing was asked for. -/
  | invalid
  deriving DecidableEq, Repr

namespace Network

/-- `recv` when `n` bytes may be returned. -/
def recv (n : ℕ) (net : Network) : ReadResult × Network :=
  if net.incoming = [] then (.closed, net)
  else (.bytes (net.incoming.take n), { net with incoming := net.incoming.drop n })

/-- Reads a specified amount of bytes into a buffer with a timeout. -/
def readBytes (len : ℕ) (net : Network) : ReadResult × Network :=
  if len = 0 then (.invalid, net)
  else
    match net.arrivals with
    | .timeout :: arrivals => (.timeout, { net with arrivals })
    | .error :: arrivals => (.closed, { net with arrivals })
    | .bytes n :: arrivals => { net with arrivals }.recv (min len (max 1 n))
    | [] => net.recv len

/-- How much there is to read, in bytes and in calls. -/
def left (net : Network) : ℕ :=
  net.incoming.length + net.arrivals.length

/-- What a call does, by what happens to it. -/
theorem readBytes_cases {len : ℕ} (hlen : 0 < len) (bs : Bytes) (arrivals : List Arrival) :
    readBytes len ⟨bs, []⟩ = recv len ⟨bs, []⟩ ∧
      (∀ n, readBytes len ⟨bs, .bytes n :: arrivals⟩ = recv (min len (max 1 n)) ⟨bs, arrivals⟩) ∧
      readBytes len ⟨bs, .timeout :: arrivals⟩ = (.timeout, ⟨bs, arrivals⟩) ∧
      readBytes len ⟨bs, .error :: arrivals⟩ = (.closed, ⟨bs, arrivals⟩) := by
  simp only [readBytes, if_neg hlen.ne', implies_true, and_self]

theorem recv_cases {n : ℕ} (hn : 0 < n) (bs : Bytes) (arrivals : List Arrival) :
    (bs = [] ∧ recv n ⟨bs, arrivals⟩ = (.closed, ⟨bs, arrivals⟩)) ∨
      ∃ mem rest, bs = mem ++ rest ∧ mem = bs.take n ∧ mem ≠ [] ∧
        recv n ⟨bs, arrivals⟩ = (.bytes mem, ⟨rest, arrivals⟩) := by
  by_cases hbs : bs = []
  · exact .inl ⟨hbs, by rw [recv, if_pos hbs]⟩
  · refine .inr ⟨bs.take n, bs.drop n, (List.take_append_drop n bs).symm, rfl, ?_, ?_⟩
    · rw [Ne, List.take_eq_nil_iff, not_or]
      exact ⟨hn.ne', hbs⟩
    · rw [recv, if_neg hbs]

/-- A call reads the next bytes of the stream, at least one, or it loses the connection or time. -/
theorem readBytes_spec {len : ℕ} (hlen : 0 < len) (net : Network) :
    (∃ mem rest, net.incoming = mem ++ rest ∧ mem ≠ [] ∧
      net.readBytes len = (.bytes mem, ⟨rest, net.arrivals.tail⟩)) ∨
    (∃ net', net.readBytes len = (.closed, net')) ∨
    ∃ arrivals, net.arrivals = .timeout :: arrivals ∧
      net.readBytes len = (.timeout, ⟨net.incoming, arrivals⟩) := by
  obtain ⟨bs, arrivals⟩ := net
  rcases arrivals with _ | ⟨a, arrivals⟩
  · rw [(readBytes_cases hlen bs []).1]
    rcases recv_cases hlen bs [] with ⟨-, h⟩ | ⟨mem, rest, hbs, -, hmem, h⟩
    · exact .inr (.inl ⟨_, h⟩)
    · exact .inl ⟨mem, rest, hbs, hmem, h⟩
  · obtain ⟨-, hbytes, htimeout, herror⟩ := readBytes_cases hlen bs arrivals
    cases a with
    | bytes n =>
      rw [hbytes]
      rcases recv_cases (n := min len (max 1 n)) (by omega) bs arrivals with
        ⟨-, h⟩ | ⟨mem, rest, hbs, -, hmem, h⟩
      · exact .inr (.inl ⟨_, h⟩)
      · exact .inl ⟨mem, rest, hbs, hmem, h⟩
    | timeout => exact .inr (.inr ⟨_, rfl, htimeout⟩)
    | error => exact .inr (.inl ⟨_, herror⟩)

/-! ### Streams in pieces -/

/-- A stream that arrives without timeouts, the next calls returning at most so many bytes. -/
def pieces (stream : Bytes) (sizes : List ℕ) : Network :=
  ⟨stream, sizes.map .bytes⟩

/-- How many bytes the next call that asks for `len` returns, if there are so many. -/
def pieceSize (len : ℕ) (sizes : List ℕ) : ℕ :=
  sizes.head?.elim len fun n ↦ min len (max 1 n)

theorem pieceSize_pos {len : ℕ} (hlen : 0 < len) (sizes : List ℕ) : 0 < pieceSize len sizes := by
  cases sizes with
  | nil => exact hlen
  | cons n sizes => exact lt_min hlen (by omega)

theorem pieceSize_le (len : ℕ) (sizes : List ℕ) : pieceSize len sizes ≤ len := by
  cases sizes with
  | nil => exact le_rfl
  | cons n sizes => exact min_le_left _ _

theorem length_take_piece_le {len k : ℕ} {sizes : List ℕ} (hk : k = pieceSize len sizes)
    (stream : Bytes) : (stream.take k).length ≤ len := by
  have := pieceSize_le len sizes
  rw [List.length_take]
  omega

theorem length_drop_piece_lt {len k : ℕ} (hlen : 0 < len) {sizes : List ℕ}
    (hk : k = pieceSize len sizes) {stream : Bytes} (hstream : stream ≠ []) :
    (stream.drop k).length < stream.length := by
  have := pieceSize_pos hlen sizes
  have := List.length_pos_iff.mpr hstream
  rw [List.length_drop]
  omega

/-- A call returns the next piece. -/
theorem readBytes_piece {len : ℕ} (hlen : 0 < len) {stream : Bytes} (hstream : stream ≠ [])
    (sizes : List ℕ) :
    readBytes len (pieces stream sizes) = (.bytes (stream.take (pieceSize len sizes)),
      pieces (stream.drop (pieceSize len sizes)) sizes.tail) := by
  cases sizes with
  | nil =>
    rw [pieces, List.map_nil, (readBytes_cases hlen stream []).1, recv, if_neg hstream]
    rfl
  | cons n sizes =>
    rw [pieces, List.map_cons, (readBytes_cases hlen stream _).2.1, recv, if_neg hstream]
    rfl

/-- Behind the last piece the connection is gone. -/
theorem readBytes_end {len : ℕ} (hlen : 0 < len) (sizes : List ℕ) :
    ∃ net, readBytes len (pieces [] sizes) = (.closed, net) := by
  cases sizes with
  | nil => exact ⟨_, (readBytes_cases hlen [] []).1⟩
  | cons n sizes => exact ⟨_, (readBytes_cases hlen [] (sizes.map .bytes)).2.1 n⟩

/-- A call returns all it asks for, or some bytes but not all. -/
theorem readBytes_pieces {mem : Bytes} (hmem : mem ≠ []) (rest : Bytes) (sizes : List ℕ) :
    ((∀ n ∈ sizes.head?, mem.length ≤ max 1 n) ∧
      readBytes mem.length (pieces (mem ++ rest) sizes) =
        (.bytes mem, pieces rest sizes.tail)) ∨
    (∃ n ∈ sizes.head?, max 1 n < mem.length) ∧ ∃ got rest', mem ++ rest = got ++ rest' ∧
      got ≠ [] ∧ got.length < mem.length ∧
      readBytes mem.length (pieces (mem ++ rest) sizes) =
        (.bytes got, pieces rest' sizes.tail) := by
  have hlen : 0 < mem.length := List.length_pos_iff.mpr hmem
  have hrecv (arrivals : List Arrival) :
      recv mem.length ⟨mem ++ rest, arrivals⟩ = (.bytes mem, ⟨rest, arrivals⟩) := by
    rw [recv, if_neg (by simp [hmem]), List.take_left, List.drop_left]
  cases sizes with
  | nil =>
    refine .inl ⟨by simp, ?_⟩
    exact (readBytes_cases hlen _ []).1.trans (hrecv [])
  | cons n sizes =>
    have hread := (readBytes_cases hlen (mem ++ rest) (sizes.map .bytes)).2.1 n
    by_cases hn : mem.length ≤ max 1 n
    · refine .inl ⟨by simpa using hn, ?_⟩
      rw [min_eq_left hn, hrecv] at hread
      exact hread
    · refine .inr ⟨⟨n, rfl, by omega⟩, ?_⟩
      rw [min_eq_right (by omega)] at hread
      rcases recv_cases (by omega : 0 < max 1 n) (mem ++ rest) (sizes.map .bytes) with
        ⟨hnil, -⟩ | ⟨got, rest', heq, hgot, hne, h⟩
      · exact absurd (List.append_eq_nil_iff.mp hnil).1 hmem
      · refine ⟨got, rest', heq, hne, ?_, hread.trans h⟩
        rw [hgot, List.length_take]
        omega

end Network

/-- Calls that ask for these numbers of bytes get them all, if they were sent. -/
def Served : List ℕ → List ℕ → Prop
  | [], _ => True
  | _ :: _, [] => True
  | len :: lens, n :: sizes => len ≤ max 1 n ∧ Served lens sizes

instance Served.decidable : ∀ lens sizes, Decidable (Served lens sizes)
  | [], _ => isTrue trivial
  | _ :: _, [] => isTrue trivial
  | len :: lens, n :: sizes =>
    have := decidable lens sizes
    inferInstanceAs (Decidable (len ≤ max 1 n ∧ Served lens sizes))

theorem served_nil (lens : List ℕ) : Served lens [] := by
  cases lens <;> trivial

theorem served_cons {len : ℕ} {lens sizes : List ℕ} :
    Served (len :: lens) sizes ↔ (∀ n ∈ sizes.head?, len ≤ max 1 n) ∧ Served lens sizes.tail := by
  cases sizes with
  | nil => cases lens <;> simp [Served]
  | cons n sizes => simp [Served]

end WebSockets
