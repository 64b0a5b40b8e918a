import ApiHandbook.Settings
import ApiHandbook.Text.Blank
import ApiHandbook.Text.Split

/-! The viewer page: a fixed document with places for the stylesheet block, the script block, the mount path, the title,
and inlined data. -/
namespace ApiHandbook.Page
open Text

def stylesheetPlace : String := "<!-- ___CSS_TEMPLATE___ -->"

def scriptPlace : String := "<!-- ___JS_TEMPLATE___ -->"

def dataPlace : String := "<!-- ___DATA_TEMPLATE___ -->"

def networkStylesheet : String :=
  "<link rel=\"stylesheet\" href=\"https://cdn.jsdelivr.net/npm/github-markdown-css@5.5.1/github-markdown-light.min.css\">"

def localStylesheet : String :=
  "<link rel=\"stylesheet\" href=\"\x7b\x7b url_prefix \x7d\x7d/static/css/github-markdown-light.min.css\">"

def networkScript : String :=
  "<script src=\"https://cdn.jsdelivr.net/npm/marked@12.0.2/marked.min.js\"></script>"

def localScript : String :=
  "<script src=\"\x7b\x7b url_prefix \x7d\x7d/static/js/marked.min.js\"></script>"

/-- The lines of the page. -/
def templateLines : List String := [
  "<!DOCTYPE html>",
  "<html lang=\"en\">",
  "<head>",
  "  <meta charset=\"utf-8\">",
  "  <meta name=\"viewport\" content=\"width=device-width, initial-scale=1\">",
  "  <title>\x7b\x7b title \x7d\x7d</title>",
  "  <!-- ___CSS_TEMPLATE___ -->",
  "  <style>",
  "    body \x7b margin: 0; font-family: -apple-system, \"Segoe UI\", Helvetica, Arial, sans-serif; \x7d",
  "    #sidebar \x7b position: fixed; top: 0; bottom: 0; left: 0; width: 280px; overflow-y: auto;",
  "               border-right: 1px solid #e1e4e8; padding: 16px; box-sizing: border-box; \x7d",
  "    #sidebar h2 \x7b font-size: 15px; margin: 16px 0 4px; \x7d",
  "    #sidebar a \x7b display: block; padding: 2px 8px; color: #0366d6; cursor: pointer; \x7d",
  "    #content \x7b margin-left: 280px; padding: 24px 40px; max-width: 980px; \x7d",
  "    .meta code \x7b margin-right: 8px; \x7d",
  "    pre.doc \x7b white-space: pre-wrap; background: #f6f8fa; padding: 12px; \x7d",
  "    #message \x7b color: #cb2431; \x7d",
  "  </style>",
  "</head>",
  "<body>",
  "  <nav id=\"sidebar\"></nav>",
  "  <main id=\"content\" class=\"markdown-body\">",
  "    <p id=\"message\"></p>",
  "  </main>",
  "  <!-- ___JS_TEMPLATE___ -->",
  "  <!-- ___DATA_TEMPLATE___ -->",
  "  <script>",
  "    (function () \x7b",
  "      var dataUrl = \"\x7b\x7b url_prefix \x7d\x7d/data\";",
  "      var sidebar = document.getElementById(\"sidebar\");",
  "      var content = document.getElementById(\"content\");",
  "",
  "      function text(tag, value, className) \x7b",
  "        var el = document.createElement(tag);",
  "        el.textContent = value;",
  "        if (className) \x7b el.className = className; \x7d",
  "        return el;",
  "      \x7d",
  "",
  "      function codeList(label, values) \x7b",
  "        var block = document.createElement(\"p\");",
  "        block.className = \"meta\";",
  "        block.appendChild(text(\"strong\", label + \" \"));",
  "        values.split(\" \").filter(Boolean).forEach(function (v) \x7b",
  "          block.appendChild(text(\"code\", v));",
  "        \x7d);",
  "        return block;",
  "      \x7d",
  "",
  "      function showEntry(group, entry) \x7b",
  "        content.innerHTML = \"\";",
  "        var title = group + \" / \" + entry.name;",
  "        if (entry.name_extra) \x7b title += \" (\" + entry.name_extra + \")\"; \x7d",
  "        content.appendChild(text(\"h1\", title));",
  "        content.appendChild(codeList(\"URL\", entry.url));",
  "        if (entry.method) \x7b content.appendChild(codeList(\"Method\", entry.method)); \x7d",
  "        content.appendChild(text(\"pre\", entry.doc, \"doc\"));",
  "        if (entry.doc_md) \x7b",
  "          var md = document.createElement(\"div\");",
  "          md.innerHTML = window.marked ? window.marked.parse(entry.doc_md) : \"\";",
  "          if (!window.marked) \x7b md.appendChild(text(\"pre\", entry.doc_md)); \x7d",
  "          content.appendChild(md);",
  "        \x7d",
  "      \x7d",
  "",
  "      function render(payload) \x7b",
  "        document.title = payload.title + \" \" + payload.version;",
  "        sidebar.appendChild(text(\"h1\", payload.title));",
  "        sidebar.appendChild(text(\"small\", \"version: \" + payload.version));",
  "        if (payload.description) \x7b sidebar.appendChild(text(\"p\", payload.description)); \x7d",
  "        Object.keys(payload.data).forEach(function (group) \x7b",
  "          var entry = payload.data[group];",
  "          var heading = group + (entry.name_extra ? \"(\" + entry.name_extra + \")\" : \"\");",
  "          sidebar.appendChild(text(\"h2\", heading));",
  "          entry.children.forEach(function (child) \x7b",
  "            var link = text(\"a\", child.name + (child.name_extra ? \" \" + child.name_extra : \"\"));",
  "            link.onclick = function () \x7b showEntry(group, child); \x7d;",
  "            sidebar.appendChild(link);",
  "          \x7d);",
  "        \x7d);",
  "        var first = Object.keys(payload.data)[0];",
  "        if (first) \x7b showEntry(first, payload.data[first].children[0]); \x7d",
  "      \x7d",
  "",
  "      function sha256(value) \x7b",
  "        var bytes = new TextEncoder().encode(value);",
  "        return crypto.subtle.digest(\"SHA-256\", bytes).then(function (digest) \x7b",
  "          return Array.from(new Uint8Array(digest)).map(function (b) \x7b",
  "            return b.toString(16).padStart(2, \"0\");",
  "          \x7d).join(\"\");",
  "        \x7d);",
  "      \x7d",
  "",
  "      function load(hash) \x7b",
  "        var headers = hash ? \x7b \"Auth-Password-SHA2\": hash \x7d : \x7b\x7d;",
  "        fetch(dataUrl, \x7b headers: headers \x7d).then(function (response) \x7b",
  "          if (response.status === 401) \x7b",
  "            var password = window.prompt(\"Password\");",
  "            if (password !== null) \x7b sha256(password).then(load); \x7d",
  "            return null;",
  "          \x7d",
  "          return response.json();",
  "        \x7d).then(function (payload) \x7b",
  "          if (payload) \x7b render(payload); \x7d",
  "        \x7d).catch(function (err) \x7b",
  "          document.getElementById(\"message\").textContent = String(err);",
  "        \x7d);",
  "      \x7d",
  "",
  "      if (window.API_DOC_DATA) \x7b",
  "        render(window.API_DOC_DATA);",
  "      \x7d else \x7b",
  "        load(null);",
  "      \x7d",
  "    \x7d)();",
  "  </script>",
  "</body>",
  "</html>"]

def template : String := String.join (templateLines.map (· ++ "\n"))

/-- A character as it stands in the text or in a quoted attribute of the page. -/
def escapeChar (c : Char) : List Char :=
  if c = '&' then "&amp;".toList
  else if c = '<' then "&lt;".toList
  else if c = '>' then "&gt;".toList
  else if c = '"' then "&quot;".toList
  else [c]

def escape (s : String) : String := mapped (fun s => s.flatMap escapeChar) s

/-- The given block unless it is blank. -/
def blockOr (fallback block : String) : String := if isBlankText block.toList then fallback else block

def fill (place value page : String) : String := mapped (replace place.toList value.toList) page

/-- The page with its places filled; what is filled in last is not searched for places. -/
def render (settings : Settings) (cdn : Bool) (data : String) : String :=
  let stylesheet := if cdn then blockOr networkStylesheet settings.cdnCssTemplate else localStylesheet
  let script := if cdn then blockOr networkScript settings.cdnJsTemplate else localScript
  fill dataPlace data
    (fill "\x7b\x7b title \x7d\x7d" (escape settings.title)
      (fill "\x7b\x7b url_prefix \x7d\x7d" (escape settings.urlPrefix)
        (fill scriptPlace (mapped trimEnd script)
          (fill stylesheetPlace (mapped trimEnd stylesheet) template))))

/-- The page that fetches its data from the service. -/
def index (settings : Settings) : String := render settings settings.cdn ""

/-- The script element that holds the data; no closing tag can stand inside it. -/
def dataElement (json : String) : String :=
  "<script>window.API_DOC_DATA = " ++ mapped (replace ['<', '/'] ['<', '\\', '/']) json ++ ";</script>"

/-- The page with its data inlined; there is no server to load assets from. -/
def offline (settings : Settings) (json : String) : String := render settings true (dataElement json)

end ApiHandbook.Page
