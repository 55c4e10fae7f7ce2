import FleetDeploy.Content.Extension
import FleetDeploy.Content.Sniff

/-!
# The content types of a rehearsal

A rehearsal knows the types of common extensions, and of no others.  The case of
ASCII letters in an extension does not count.
-/

namespace FleetDeploy

namespace Rehearsal

/-- The types that a rehearsal knows, each with its extensions. -/
def registry : List (String × List String) :=
  [("application/atom+xml", ["atom"]),
   ("application/directx", ["x"]),
   ("application/epub+zip", ["epub"]),
   ("application/font-sfnt", ["otf"]),
   ("application/font-woff", ["woff"]),
   ("application/geo+json", ["geojson"]),
   ("application/gzip", ["gz"]),
   ("application/java-archive", ["jar"]),
   ("application/javascript", ["mjs"]),
   ("application/json", ["json"]),
   ("application/ld+json", ["jsonld"]),
   ("application/manifest+json", ["webmanifest"]),
   ("application/msword", ["doc"]),
   ("application/octet-stream", ["java", "exe", "so", "bin", "iso", "dmg", "psd"]),
   ("application/pdf", ["pdf"]),
   ("application/pgp-signature", ["asc", "sig"]),
   ("application/postscript", ["ai", "eps", "ps"]),
   ("application/rss+xml", ["rss"]),
   ("application/rtf", ["rtf"]),
   ("application/vnd.android.package-archive", ["apk"]),
   ("application/vnd.dart", ["dart"]),
   ("application/vnd.lotus-1-2-3", ["123"]),
   ("application/vnd.ms-excel", ["xls"]),
   ("application/vnd.ms-fontobject", ["eot"]),
   ("application/vnd.ms-powerpoint", ["ppt"]),
   ("application/vnd.oasis.opendocument.text", ["odt"]),
   ("application/wasm", ["wasm"]),
   ("application/x-7z-compressed", ["7z"]),
   ("application/x-bittorrent", ["torrent"]),
   ("application/x-bzip2", ["bz2"]),
   ("application/x-httpd-php", ["php"]),
   ("application/x-ms-manifest", ["manifest"]),
   ("application/x-msdownload", ["bat", "dll"]),
   ("application/x-perl", ["pl"]),
   ("application/x-rar-compressed", ["rar"]),
   ("application/x-sh", ["sh"]),
   ("application/x-shockwave-flash", ["swf"]),
   ("application/x-sql", ["sql"]),
   ("application/x-subrip", ["srt"]),
   ("application/x-tar", ["tar"]),
   ("application/x-tex", ["tex"]),
   ("application/x-x509-ca-cert", ["pem", "crt", "cer"]),
   ("application/x-xz", ["xz"]),
   ("application/xhtml+xml", ["xhtml"]),
   ("application/zip", ["zip"]),
   ("audio/aac", ["aac"]),
   ("audio/flac", ["flac"]),
   ("audio/m4a", ["m4a"]),
   ("audio/mpeg", ["mp3"]),
   ("audio/ogg", ["ogg", "oga"]),
   ("audio/wav", ["wav"]),
   ("audio/x-mpegurl", ["m3u8", "m3u"]),
   ("font/ttf", ["ttf"]),
   ("font/woff2", ["woff2"]),
   ("image/avif", ["avif"]),
   ("image/bmp", ["bmp"]),
   ("image/gif", ["gif"]),
   ("image/jpeg", ["jpg", "jpeg"]),
   ("image/png", ["png"]),
   ("image/svg+xml", ["svg", "svgz"]),
   ("image/tiff", ["tiff", "tif"]),
   ("image/webp", ["webp"]),
   ("image/x-icon", ["ico"]),
   ("message/rfc822", ["eml"]),
   ("text/cache-manifest", ["appcache"]),
   ("text/calendar", ["ics"]),
   ("text/coffeescript", ["coffee"]),
   ("text/css", ["css"]),
   ("text/csv", ["csv"]),
   ("text/h323", ["323"]),
   ("text/html", ["html", "htm", "shtml"]),
   ("text/javascript", ["js", "jsx"]),
   ("text/less", ["less"]),
   ("text/markdown", ["md", "markdown"]),
   ("text/plain", ["map", "txt", "text", "py", "c", "h", "cpp", "log", "ini", "conf", "cfg"]),
   ("text/tab-separated-values", ["tsv"]),
   ("text/vtt", ["vtt"]),
   ("text/x-lua", ["lua"]),
   ("text/x-rust", ["rs"]),
   ("text/x-sass", ["sass"]),
   ("text/x-scss", ["scss"]),
   ("text/x-toml", ["toml"]),
   ("text/x-vcard", ["vcf"]),
   ("text/x-yaml", ["yaml", "yml"]),
   ("text/xml", ["xml"]),
   ("video/3gpp", ["3gp"]),
   ("video/mp4", ["mp4"]),
   ("video/mpeg", ["mpeg", "mpg"]),
   ("video/ogg", ["ogv"]),
   ("video/quicktime", ["mov"]),
   ("video/vnd.dlna.mpeg-tts", ["ts"]),
   ("video/webm", ["webm"]),
   ("video/x-m4v", ["m4v"]),
   ("video/x-matroska", ["mkv"]),
   ("video/x-msvideo", ["avi"]),
   ("application/vnd.openxmlformats-officedocument.wordprocessingml.document", ["docx"]),
   ("application/vnd.openxmlformats-officedocument.spreadsheetml.sheet", ["xlsx"]),
   ("application/vnd.openxmlformats-officedocument.presentationml.presentation", ["pptx"])]

/-- The type that a rehearsal knows for an extension. -/
def registered? (extension : List UInt8) : Option String :=
  let small := extension.map Content.lower
  (registry.find? fun (_, extensions) => extensions.any fun e => Path.ofString e = small).map (·.1)

/-- The map of a rehearsal. -/
instance contentTypes : ContentTypes :=
  ⟨registered?⟩

end Rehearsal

/-- The type that a rehearsal knows for the extension of a path. -/
def Content.ofPath? (path : Path) : Option String :=
  Rehearsal.contentTypes.ofPath? path

end FleetDeploy
