/-! # Media types by file extension -/

namespace Multipart.MediaType

/-- Each media type with the extensions that mean it, in lower case. No extension occurs twice. -/
def table : List (String × List String) := [
  ("application/acad", ["dwg"]),
  ("application/atom+xml", ["atom"]),
  ("application/epub+zip", ["epub"]),
  ("application/font-sfnt", ["otf"]),
  ("application/font-woff", ["woff"]),
  ("application/geo+json", ["geojson"]),
  ("application/gzip", ["gz"]),
  ("application/java-archive", ["jar", "war"]),
  ("application/javascript", ["mjs"]),
  ("application/json", ["json"]),
  ("application/ld+json", ["jsonld"]),
  ("application/manifest+json", ["webmanifest"]),
  ("application/msword", ["doc"]),
  ("application/pdf", ["pdf"]),
  ("application/pgp-encrypted", ["pgp"]),
  ("application/pgp-signature", ["asc", "sig"]),
  ("application/postscript", ["ai", "eps", "ps"]),
  ("application/rss+xml", ["rss"]),
  ("application/rtf", ["rtf"]),
  ("application/vnd.android.package-archive", ["apk"]),
  ("application/vnd.lotus-1-2-3", ["123"]),
  ("application/vnd.ms-excel", ["xls"]),
  ("application/vnd.ms-fontobject", ["eot"]),
  ("application/vnd.ms-pki.stl", ["stl"]),
  ("application/vnd.ms-powerpoint", ["ppt"]),
  ("application/vnd.oasis.opendocument.presentation", ["odp"]),
  ("application/vnd.oasis.opendocument.spreadsheet", ["ods"]),
  ("application/vnd.oasis.opendocument.text", ["odt"]),
  ("application/vnd.openxmlformats-officedocument.presentationml.presentation", ["pptx"]),
  ("application/vnd.openxmlformats-officedocument.spreadsheetml.sheet", ["xlsx"]),
  ("application/vnd.openxmlformats-officedocument.wordprocessingml.document", ["docx"]),
  ("application/wasm", ["wasm"]),
  ("application/x-7z-compressed", ["7z"]),
  ("application/x-bittorrent", ["torrent"]),
  ("application/x-bzip2", ["bz2"]),
  ("application/x-compressed", ["tgz"]),
  ("application/x-dxf", ["dxf"]),
  ("application/x-httpd-php", ["php"]),
  ("application/x-java-applet", ["class"]),
  ("application/x-latex", ["latex"]),
  ("application/x-mobipocket-ebook", ["mobi"]),
  ("application/x-ms-manifest", ["manifest"]),
  ("application/x-ms-shortcut", ["lnk"]),
  ("application/x-msdownload", ["bat", "dll"]),
  ("application/x-perl", ["pl"]),
  ("application/x-pkcs12", ["p12", "pfx"]),
  ("application/x-rar-compressed", ["rar"]),
  ("application/x-sh", ["sh"]),
  ("application/x-shockwave-flash", ["swf"]),
  ("application/x-sql", ["sql"]),
  ("application/x-subrip", ["srt"]),
  ("application/x-tar", ["tar"]),
  ("application/x-tcl", ["tcl"]),
  ("application/x-tex", ["tex"]),
  ("application/x-tgif", ["obj"]),
  ("application/x-x509-ca-cert", ["cer", "crt", "der", "pem"]),
  ("application/x-xz", ["xz"]),
  ("application/xaml+xml", ["xaml"]),
  ("application/xhtml+xml", ["xhtml"]),
  ("application/zip", ["zip"]),
  ("audio/aac", ["aac"]),
  ("audio/aiff", ["aif", "aiff"]),
  ("audio/audible", ["aa"]),
  ("audio/flac", ["flac"]),
  ("audio/m4a", ["m4a"]),
  ("audio/mid", ["mid", "midi"]),
  ("audio/mpeg", ["mp3"]),
  ("audio/ogg", ["oga", "ogg", "opus"]),
  ("audio/wav", ["wav"]),
  ("audio/webm", ["weba"]),
  ("audio/x-mpegurl", ["m3u", "m3u8"]),
  ("audio/x-ms-wma", ["wma"]),
  ("audio/x-pn-realaudio", ["ra", "ram"]),
  ("audio/x-pn-realaudio-plugin", ["rpm"]),
  ("font/ttf", ["ttf"]),
  ("font/woff2", ["woff2"]),
  ("image/avif", ["avif"]),
  ("image/bmp", ["bmp"]),
  ("image/gif", ["gif"]),
  ("image/heic", ["heic"]),
  ("image/jp2", ["jp2"]),
  ("image/jpeg", ["jfif", "jpeg", "jpg"]),
  ("image/jxl", ["jxl"]),
  ("image/png", ["png"]),
  ("image/svg+xml", ["svg", "svgz"]),
  ("image/tiff", ["tif", "tiff"]),
  ("image/vnd.wap.wbmp", ["wbmp"]),
  ("image/webp", ["webp"]),
  ("image/x-adobe-dng", ["dng"]),
  ("image/x-canon-cr2", ["cr2"]),
  ("image/x-icon", ["ico"]),
  ("image/x-nikon-nef", ["nef"]),
  ("image/x-panasonic-rw", ["raw"]),
  ("image/x-portable-anymap", ["pnm"]),
  ("image/x-portable-bitmap", ["pbm"]),
  ("image/x-portable-graymap", ["pgm"]),
  ("image/x-portable-pixmap", ["ppm"]),
  ("image/x-tga", ["tga"]),
  ("message/rfc822", ["eml"]),
  ("model/gltf+json", ["gltf"]),
  ("model/gltf-binary", ["glb"]),
  ("text/cache-manifest", ["appcache"]),
  ("text/calendar", ["ics"]),
  ("text/css", ["css"]),
  ("text/csv", ["csv"]),
  ("text/h323", ["323"]),
  ("text/html", ["htm", "html"]),
  ("text/javascript", ["js", "jsx"]),
  ("text/markdown", ["markdown", "md"]),
  ("text/plain", ["c", "cc", "cfg", "conf", "cpp", "h", "hpp", "ini", "log", "map", "py", "reg", "txt"]),
  ("text/vtt", ["vtt"]),
  ("text/x-lua", ["lua"]),
  ("text/x-nfo", ["nfo"]),
  ("text/x-rust", ["rs"]),
  ("text/x-toml", ["toml"]),
  ("text/x-vcard", ["vcf"]),
  ("text/x-yaml", ["yaml", "yml"]),
  ("text/xml", ["dtd", "xml", "xsl", "xslt"]),
  ("video/3gpp", ["3gp"]),
  ("video/mp4", ["mp4"]),
  ("video/mpeg", ["mpeg", "mpg"]),
  ("video/ogg", ["ogv"]),
  ("video/quicktime", ["mov"]),
  ("video/vnd.dlna.mpeg-tts", ["ts"]),
  ("video/webm", ["webm"]),
  ("video/x-f4v", ["f4v"]),
  ("video/x-flv", ["flv"]),
  ("video/x-m4v", ["m4v"]),
  ("video/x-matroska", ["mkv"]),
  ("video/x-ms-asf", ["asf"]),
  ("video/x-ms-wmv", ["wmv"]),
  ("video/x-msvideo", ["avi"])]

end Multipart.MediaType
