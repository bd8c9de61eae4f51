namespace TwakeKickstart.TomServer

/-! The URLs of the homeserver. -/

/-- The class `URL`: its constructor with one text and with two, and what the
code reads and writes of an instance. -/
structure UrlClass (Url : Type) where
  parse : String → Option Url
  resolve : String → String → Option Url
  pathname : Url → String
  withPathname : Url → String → Url
  href : Url → String

variable {Url : Type} (urls : UrlClass Url)

def formattedUrl (base : String) : String :=
  if "https://".toList.isPrefixOf base.toList ||
      "http://".toList.isPrefixOf base.toList then base
  else "https://" ++ base

/-- The base with a path that ends in a slash. -/
def baseUrl (base : String) : Option Url :=
  (urls.parse (formattedUrl base)).map fun baseUrl =>
    let pathname := urls.pathname baseUrl
    if "/".toList.isSuffixOf pathname.toList then baseUrl
    else urls.withPathname baseUrl (pathname ++ "/")

def processedPath (path : String) : String :=
  match path.toList with
  | '/' :: rest => String.ofList rest
  | _ => path

/-- `none` where a constructor throws. -/
def buildUrl (base path : String) : Option String := do
  let baseUrl ← baseUrl urls base
  let finalUrl ← urls.resolve (processedPath path) (urls.href baseUrl)
  return urls.href finalUrl

end TwakeKickstart.TomServer
