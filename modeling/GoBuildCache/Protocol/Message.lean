import GoBuildCache.Basic

/-!
# The messages of the `GOCACHEPROG` protocol

The go command and the cache program exchange one JSON object per line.  This module fixes the
Go types of those messages and of the body reader that `ReadRequest` attaches to a `put`:

* `Request` and `Response` are the structs of the same names, field for field.  A `Cmd` is a
  byte string; `cmdPut`, `cmdGet` and `cmdClose` are its three constants.
* `Reader` is a `strings.Reader`: the bytes it was made from and how far they have been read.
  A request keeps a pointer to its reader, so every read by whoever is handed `req.Body` moves
  the one position that later reads start from (`Reader.read`).
-/

namespace GoBuildCache.Protocol

/-- `CmdPut`. -/
def cmdPut : Bytes := ascii "put"

/-- `CmdGet`. -/
def cmdGet : Bytes := ascii "get"

/-- `CmdClose`. -/
def cmdClose : Bytes := ascii "close"

/-- A `strings.Reader`: its string `s` and the read position `i`. -/
structure Reader where
  data : Bytes
  pos : Nat
  deriving DecidableEq

namespace Reader

/-- `strings.NewReader(s)`. -/
def new (s : Bytes) : Reader := ⟨s, 0⟩

/-- What reads from the reader yield from now on, up to `io.EOF`. -/
def rest (r : Reader) : Bytes := r.data.drop r.pos

/-- The reader after reads that took `k` bytes; a reader at its end stays there. -/
def read (r : Reader) (k : Nat) : Reader := ⟨r.data, min (r.pos + k) r.data.length⟩

@[simp] theorem rest_new (s : Bytes) : (new s).rest = s := rfl

@[simp] theorem rest_read (r : Reader) (k : Nat) : (r.read k).rest = r.rest.drop k := by
  simp only [rest, read, List.drop_drop]
  rcases Nat.le_total (r.pos + k) r.data.length with h | h
  · rw [Nat.min_eq_left h, Nat.add_comm]
  · rw [Nat.min_eq_right h, List.drop_length, List.drop_of_length_le (by omega)]

end Reader

/-- `Request`.  `body` is the reader behind `Body`, `none` for a nil `io.Reader`. -/
structure Request where
  id : Int64
  command : Bytes
  actionID : Bytes
  outputID : Bytes
  body : Option Reader
  bodySize : Int64
  deriving DecidableEq

/-- `Response`.  `time` is `none` for a nil `*time.Time`. -/
structure Response where
  id : Int64
  err : Bytes
  knownCommands : List Bytes
  miss : Bool
  outputID : Bytes
  size : Int64
  time : Option GoTime
  diskPath : Bytes
  deriving DecidableEq

/-- `var resp Response`: the zero value. -/
def Response.zero : Response := ⟨Int64.zero, [], [], false, [], Int64.zero, none, []⟩

end GoBuildCache.Protocol
