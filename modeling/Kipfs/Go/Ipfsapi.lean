import Kipfs.Foundation.Effects
import Kipfs.Foundation.Reader
import Mathlib.Logic.Function.Basic

/-!
# The HTTP client under the shell package

The part of `go-ipfs-api` that `shell.go` calls, as its documentation has it: a request builder
that stores arguments, options and a body, `Send`, which issues one HTTP request with what is
stored, and the response it gives. What the server answers is a parameter (`Outside.server`);
everything issued and closed is recorded in `Net`, and the theorems speak about that record.
-/

namespace Kipfs

open Foundation

/-- A Go `[]byte` or `string`. -/
abbrev Bytes := List UInt8

/-- A Go `error`: `io.EOF`, or one known by its text. -/
abbrev GoError := ReadError Bytes

/-- `err.Error()`. -/
def GoError.text : GoError → Bytes
  | .eof => [69, 79, 70]
  | .other text => text

/-- What ends a Go process. -/
inductive GoPanic where
  | nilDereference
  | unknownRefNum (refnum : Int)
  | refsUnderflow
  | typeAssertion
  | negativeLength
  | value (message : Bytes)
  deriving DecidableEq, Repr

namespace Ipfsapi

/-- `files.Node`: a file read from bytes, or one read from the disk when it is sent. -/
inductive Node where
  | readerFile (content : Bytes)
  | serialFile (path : Bytes)
  deriving DecidableEq, Repr

/-- `files.FileEntry(name, node)`. -/
structure FileEntry where
  name : Bytes
  node : Node
  deriving DecidableEq, Repr

/-- A stored body: a reader together with what it has yet to yield. -/
inductive Body where
  | raw (unread : Bytes)
  | multipart (unread : List FileEntry)
  deriving DecidableEq, Repr

/-- The reader after it has been read to its end. -/
def Body.drained : Body → Body
  | .raw _ => .raw []
  | .multipart _ => .multipart []

/-- `ipfsapi.RequestBuilder`. -/
structure RequestBuilder where
  url : Bytes
  command : Bytes
  args : List Bytes
  opts : Bytes → Option Bytes
  body : Option Body

/-- An HTTP request as the server receives it. -/
structure WireRequest where
  url : Bytes
  command : Bytes
  args : List Bytes
  opts : Bytes → Option Bytes
  body : Option Body

/-- `ipfsapi.Response`, with the number of the request it answers. -/
structure Response where
  id : Nat
  Error : Option GoError
  Output : Option (Reader Bytes)

/-- What comes of sending a request: the transport fails and there is no response, the server
replies with an error status, or there is a body to read. -/
inductive SendOutcome where
  | failed (err : GoError)
  | status (err : GoError)
  | body (output : Reader Bytes)

/-- The calls made back to a `misc.Callback`. -/
inductive CallbackEvent where
  | OnResponse (data : Bytes)
  | OnError (err : Bytes)
  deriving DecidableEq, Repr

/-- The requests issued, the responses closed by their numbers, and the callbacks made, each in
order. -/
structure Net where
  issued : List WireRequest
  closed : List Nat
  callbacks : List CallbackEvent

/-- What the package meets outside: the server, answering the last of the requests issued so far,
and the file system. -/
structure Outside where
  server : List WireRequest → SendOutcome
  lstat : Bytes → Option GoError
  newSerialFile : Bytes → Except GoError Node

/-- A builder in use, and the network. -/
structure Conn where
  rb : RequestBuilder
  net : Net

/-- A program of the shell package, working on one builder. -/
abbrev GoM := EStateM GoPanic Conn

/-- The request a builder stands for. -/
def RequestBuilder.wire (rb : RequestBuilder) : WireRequest :=
  ⟨rb.url, rb.command, rb.args, rb.opts, rb.body⟩

/-- `shell.Request(command)`. -/
def Request (url command : Bytes) : RequestBuilder :=
  ⟨url, command, [], fun _ => none, none⟩

/-- The results of `RequestBuilder.Send`: a response, nil when there is none, and an error. -/
abbrev Reply := Option Response × Option GoError

/-- The builder and the network after a request has been issued: its body, if there is one, has
been read. -/
def Conn.issue (c : Conn) : Conn :=
  { rb := { c.rb with body := c.rb.body.map Body.drained }
    net := { c.net with issued := c.net.issued ++ [c.rb.wire] } }

/-- What `RequestBuilder.Send` returns for the request with the given number. -/
def SendOutcome.reply (id : Nat) : SendOutcome → Reply
  | .failed err => (none, some err)
  | .status err => (some ⟨id, some err, none⟩, none)
  | .body output => (some ⟨id, none, some output⟩, none)

/-- `RequestBuilder.Send`. -/
def RequestBuilder.Send (out : Outside) : GoM Reply := do
  let c ← get
  modify Conn.issue
  pure ((out.server (c.net.issued ++ [c.rb.wire])).reply c.net.issued.length)

/-- `RequestBuilder.Arguments`, for one argument. -/
def RequestBuilder.Arguments (arg : Bytes) : GoM Unit :=
  modify fun c => { c with rb := { c.rb with args := c.rb.args ++ [arg] } }

/-- `RequestBuilder.Body`. -/
def RequestBuilder.Body (body : Ipfsapi.Body) : GoM Unit :=
  modify fun c => { c with rb := { c.rb with body := some body } }

/-- `RequestBuilder.Option`, for a string value. -/
def RequestBuilder.Option (key value : Bytes) : GoM Unit :=
  modify fun c => { c with rb := { c.rb with opts := Function.update c.rb.opts key (some value) } }

/-- `Response.Close`, which dereferences its receiver. -/
def Response.Close : Option Response → GoM Unit
  | none => abort .nilDereference
  | some res => modify fun c => { c with net := { c.net with closed := c.net.closed ++ [res.id] } }

end Ipfsapi

end Kipfs
