import Kipfs.Go.Ipfsapi
import Mathlib.Data.List.DropRight

/-!
# The shell package

`shell.go`: requests sent through a `RequestBuilder`, the five ways of posting a body, and the
streaming `Response`. A method of the builder is a program over the builder and the network;
`defer` is `ensure`, so that a deferred close runs on a return and on a panic alike.
-/

namespace Kipfs

/-- `Shell`, by the address of its node. -/
structure Shell where
  url : Bytes
  deriving DecidableEq, Repr

namespace Shell

open Foundation Ipfsapi

/-- `NewShell`. -/
def NewShell (url : Bytes) : Shell := ⟨url⟩

/-- `Shell.NewRequest`: leading slashes are trimmed from the command. -/
def NewRequest (s : Shell) (command : Bytes) : RequestBuilder :=
  Ipfsapi.Request s.url (command.dropWhile (· = 47))

/-- `*p`, for a pointer that may be nil. -/
def deref {α : Type} : Option α → GoM α := orAbort .nilDereference

/-- `ioutil.ReadAll`, which calls a method of its argument. -/
def ReadAll (output : Option (Reader Bytes)) : GoM (Bytes × Option GoError) := do
  let r ← deref output
  pure r.readAll

/-- `RequestBuilder.Send`. -/
def Send (out : Outside) : GoM (Bytes × Option GoError) := do
  let (res, err) ← RequestBuilder.Send out
  match err with
  | some err => pure ([], some err)
  | none =>
      ensure (Response.Close res) do
        let res ← deref res
        match res.Error with
        | some err => pure ([], some err)
        | none => ReadAll res.Output

/-- `RequestBuilder.Argument`. -/
def Argument (arg : Bytes) : GoM Unit := RequestBuilder.Arguments arg

/-- `RequestBuilder.StringOptions`. -/
def StringOptions (key value : Bytes) : GoM Unit := RequestBuilder.Option key value

/-- A multipart body of one entry, `files.NewMultiFileReader` over a slice directory. -/
def multiFileReader (name : Bytes) (file : Node) : Body := .multipart [⟨name, file⟩]

/-- `RequestBuilder.Post2`. The deferred close is in place before the error is looked at. -/
def Post2 (out : Outside) (name : Bytes) (file : Node) : GoM (Bytes × Option GoError) := do
  RequestBuilder.Body (multiFileReader name file)
  let (res, err) ← RequestBuilder.Send out
  ensure (Response.Close res) do
    match err with
    | some err => pure ([], some err)
    | none =>
        let res ← deref res
        let (respData, err) ← ReadAll res.Output
        match err with
        | some err => pure ([], some err)
        | none => pure (respData, none)

/-- The tail shared by `post3` and `Post4`: send, and hand the response out unread. -/
def sendForResponse (out : Outside) : GoM Reply := do
  let (res, err) ← RequestBuilder.Send out
  match err with
  | some err => pure (none, some err)
  | none => pure (res, none)

/-- `RequestBuilder.post3`. -/
def post3 (out : Outside) (name : Bytes) (file : Node) : GoM Reply := do
  RequestBuilder.Body (multiFileReader name file)
  sendForResponse out

/-- `RequestBuilder.Post4`, for a reader that will yield the given bytes. -/
def Post4 (out : Outside) (body : Bytes) : GoM Reply := do
  RequestBuilder.Body (.raw body)
  sendForResponse out

/-- `callback.OnResponse` or `callback.OnError`. -/
def notify (event : CallbackEvent) : GoM Unit :=
  modify fun c => { c with net := { c.net with callbacks := c.net.callbacks ++ [event] } }

/-- `RequestBuilder.post`. The error of `ReadAll` is dropped and the response is not closed. -/
def post (out : Outside) (name : Bytes) (file : Node) : GoM Unit := do
  RequestBuilder.Body (multiFileReader name file)
  let (res, err) ← RequestBuilder.Send out
  match err with
  | some err => notify (.OnError err.text)
  | none =>
      let res ← deref res
      let (respData, _) ← ReadAll res.Output
      notify (.OnResponse respData)

/-- `RequestBuilder.PostData`. -/
def PostData (out : Outside) (data : Bytes) : GoM Unit := post out [] (.readerFile data)

/-- `RequestBuilder.PostData2`. -/
def PostData2 (out : Outside) (data : Bytes) : GoM (Bytes × Option GoError) :=
  Post2 out [] (.readerFile data)

/-- `RequestBuilder.PostData3`. -/
def PostData3 (out : Outside) (data : Bytes) : GoM Reply := post3 out [] (.readerFile data)

/-- `RequestBuilder.PostString`. -/
def PostString (out : Outside) (data : Bytes) : GoM Unit := post out [] (.readerFile data)

/-- `RequestBuilder.PostString2`. -/
def PostString2 (out : Outside) (data : Bytes) : GoM (Bytes × Option GoError) :=
  Post2 out [] (.readerFile data)

/-- `RequestBuilder.PostString3`. -/
def PostString3 (out : Outside) (data : Bytes) : GoM Reply := post3 out [] (.readerFile data)

/-- `RequestBuilder.PostReader`, for a reader that will yield the given bytes. -/
def PostReader (out : Outside) (name data : Bytes) : GoM Unit := post out name (.readerFile data)

/-- `filepath.Base`: the last element of a path, without its trailing slashes. -/
def Base (path : Bytes) : Bytes :=
  if path = [] then [46]
  else
    match path.rdropWhile (· = 47) with
    | [] => [47]
    | trimmed => trimmed.rtakeWhile (· ≠ 47)

/-- `RequestBuilder.PostDirectory`. -/
def PostDirectory (out : Outside) (dir : Bytes) : GoM Unit :=
  match out.lstat dir with
  | some err => notify (.OnError err.text)
  | none =>
      match out.newSerialFile dir with
      | .error err => notify (.OnError err.text)
      | .ok sf => post out (Base dir) sf

/-- `Response.Read` into a buffer of the given size, on a response as its whole state: the data it
put into the buffer, the number it reports, and the error. -/
def Response.Read (size : Nat) : EStateM GoPanic Response (Bytes × Int × Option GoError) := do
  let res ← get
  let output ← orAbort .nilDereference res.Output
  let (data, err, output) := output.read size
  set { res with Output := some output }
  if err = some .eof then pure (data, -1, none) else pure (data, data.length, err)

end Shell

end Kipfs
