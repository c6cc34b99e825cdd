import Templating.Document
import Templating.OrderedMap

namespace Templating

inductive DataValue
  | text (text : String)
  /-- Worked out once for each document from its page. -/
  | computed (value : Node → String)

def DataValue.evaluate (page : Node) : DataValue → String
  | .text t => t
  | .computed value => value page

/-- The layout of pages that have no layout directive. -/
inductive DefaultLayout
  | none
  | path (path : Path)
  /-- Chosen by the path of the page. -/
  | chosen (choose : Path → Option Path)

/-- The default layout of a page; a relative one lies in the root directory, and an empty one is
none. -/
def DefaultLayout.resolve (layout : DefaultLayout) (src root : Path) : Option Path :=
  let chosen :=
    match layout with
    | .none => Option.none
    | .path p => some p
    | .chosen choose => choose src
  (chosen.filter fun p : Path => p.text != "").map fun p => (root.join p).normalize

/-- The data keys that every document has: where its page lies and what it is called. -/
def builtinData : OrderedMap DataValue :=
  [("dirname", .computed fun page => Path.relativeDirname page.dirname page.root),
    ("filename", .computed Node.filename), ("extname", .computed Node.extname)]

/-- What documents are made from: the root directory, the delimiters, the data values and the default layout. -/
structure Options where
  root : Path
  tags : Tags
  data : OrderedMap DataValue
  layout : DefaultLayout

namespace Options

/-- The options of a root directory, with nothing else said. -/
def new (root : Path) : Options := ⟨root.normalize, .default, builtinData, .none⟩

def withTags (o : Options) (tags : Tags) : Options := { o with tags := tags }

/-- Sets the value of a data key in lower case. -/
def withData (o : Options) (key : String) (value : DataValue) : Options :=
  { o with data := o.data.set (Text.lowercase key) value }

/-- Sets the value of a data key as it is spelled. -/
def withKey (o : Options) (key : String) (value : DataValue) : Options :=
  { o with data := o.data.set key value }

def withLayout (o : Options) (layout : DefaultLayout) : Options := { o with layout := layout }

end Options

inductive ComposeError
  | missingPath
  | tags (error : TagError)
  | unreadable (path : Path) (message : String)

def ComposeError.message : ComposeError → String
  | .missingPath => "document path must not be empty"
  | .tags e => "invalid tags: " ++ e.message
  | .unreadable path message => "cannot read " ++ path.text ++ ": " ++ message

structure Composer where
  options : Options
  scanner : Scanner

namespace Composer

def new (options : Options) : Except ComposeError Composer :=
  match Scanner.new options.tags options.data.keys with
  | .ok scanner => .ok ⟨options, scanner⟩
  | .error e => .error (.tags e)

/-- The path that identifies a document. -/
def resolve (c : Composer) (src : Path) : Path := (c.options.root.join src).normalize

/-- The values of the data keys for a page, by key in lower case. -/
def values (c : Composer) (page : Node) : List (String × String) :=
  c.options.data.map fun (key, value) => (Text.lowercase key, value.evaluate page)

/-- The document of a text that is not loaded. -/
def document (c : Composer) (src : Path) (source : String) : Except ComposeError Document :=
  if src.text = "" then .error .missingPath
  else
    let page := Node.new (c.resolve src) c.options.root source .root
    let layout := c.options.layout.resolve page.src page.root
    .ok ⟨⟨c.scanner, c.values page, layout⟩, page⟩

/-- The document of a text that the loader gives. -/
def load (c : Composer) (load : Loader) (src : Path) : Except ComposeError Document :=
  if src.text = "" then .error .missingPath
  else
    match load (c.resolve src) with
    | .ok source => c.document (c.resolve src) source
    | .error message => .error (.unreadable (c.resolve src) message)

end Composer

end Templating
